import IdlBindings.Proofs.Model.Overloads

/-!
# The order of declaration

Operations of many names stand among the other members of an interface. Grouping them keeps two
orders: names come in the order of the first place where they stand, and the operations of one name
in the order of their places. So the index of an operation in its set is the number of operations of
its name before it, and nothing but the members decides which sets there are.

## Main definitions

* `Interface.firstPlace`: the first place of a name among the members
* `Interface.rank`: how many operations of a name stand before a place
* `Interface.DeclaresAt`: an operation stands at a place
* `Interface.GroupsStably`: sets that are the operations of an interface, grouped by name in order
-/
namespace IdlBindings

/-- The operation that a member is, if it has a name. -/
def Member.operationNamed? (name : String) (member : Member) : Option Operation :=
  member.operation?.filter fun op => op.name == name

namespace Interface

/-- The first place among the members with an operation of a name. -/
def firstPlace (i : Interface) (name : String) : Nat :=
  i.members.findIdx fun member => (member.operationNamed? name).isSome

/-- How many operations of a name stand before a place among the members. -/
def rank (i : Interface) (name : String) (place : Nat) : Nat :=
  (i.members.take place).countP fun member => (member.operationNamed? name).isSome

/-- The member at a place is an operation of a name. -/
structure DeclaresAt (i : Interface) (name : String) (place : Nat) (o : Operation) : Prop where
  member : i.members[place]? = some (.operation o)
  name_eq : o.name = name

/-- The sets have the names of all operations, each once and in the order of their first places. The
set of a name has all operations of that name in the order of the members. -/
structure GroupsStably (i : Interface) (sets : List (String × List Operation)) : Prop where
  nodup : (sets.map Prod.fst).Nodup
  names : ∀ name, name ∈ sets.map Prod.fst ↔ ∃ o ∈ i.operations, o.name = name
  ordered : (sets.map Prod.fst).Pairwise fun a b => i.firstPlace a < i.firstPlace b
  nonempty : ∀ set ∈ sets, set.2 ≠ []
  operations : ∀ set ∈ sets, set.2 = i.operations.filter fun o => o.name == set.1

end Interface

variable {i : Interface} {name owner : String} {member : Member} {members : List Member}
  {o : Operation} {set : String × List Operation} {index place place' : Nat}

theorem Member.operationNamed?_eq_some_iff :
    member.operationNamed? name = some o ↔ member = .operation o ∧ o.name = name := by
  rw [operationNamed?, Option.filter_eq_some_iff, beq_iff_eq]
  cases member <;> simp [operation?]

theorem Member.isSome_operationNamed?_iff :
    (member.operationNamed? name).isSome = true ↔ ∃ o, member = .operation o ∧ o.name = name := by
  rw [Option.isSome_iff_exists]
  exact exists_congr fun o => operationNamed?_eq_some_iff

namespace Interface

theorem mem_operations_iff : o ∈ i.operations ↔ .operation o ∈ i.members := by
  rw [operations, List.mem_filterMap]
  constructor
  · rintro ⟨member, hmember, ho⟩
    cases member with
    | operation =>
        cases ho
        exact hmember
    | _ => cases ho
  · exact fun ho => ⟨_, ho, rfl⟩

/-! ## Names in order -/

theorem firstPlace_lt_length_iff :
    i.firstPlace name < i.members.length ↔ ∃ o ∈ i.operations, o.name = name := by
  rw [firstPlace, List.findIdx_lt_length]
  constructor
  · rintro ⟨member, hmember, hsome⟩
    obtain ⟨o, rfl, hname⟩ := Member.isSome_operationNamed?_iff.mp hsome
    exact ⟨o, mem_operations_iff.mpr hmember, hname⟩
  · rintro ⟨o, ho, hname⟩
    exact ⟨_, mem_operations_iff.mp ho, Member.isSome_operationNamed?_iff.mpr ⟨o, rfl, hname⟩⟩

/-- A member at the end does not change where a name comes first, or the name comes first there. -/
theorem firstPlace_concat :
    firstPlace ⟨owner, members ++ [member]⟩ name =
      if firstPlace ⟨owner, members⟩ name < members.length then firstPlace ⟨owner, members⟩ name
      else [member].findIdx (fun member => (member.operationNamed? name).isSome) +
        members.length :=
  List.findIdx_append

theorem operations_concat :
    operations ⟨owner, members ++ [member]⟩ =
      operations ⟨owner, members⟩ ++ member.operation?.toList := by
  cases hop : member.operation? <;> simp [operations, hop]

theorem pairwise_firstPlace (i : Interface) :
    (i.operations.map Operation.name).eraseDups.Pairwise fun a b =>
      i.firstPlace a < i.firstPlace b := by
  obtain ⟨owner, members⟩ := i
  induction members using List.reverseRecOn with
  | nil => exact .nil
  | append_singleton members member ih =>
      have hplace : ∀ name ∈ (operations ⟨owner, members⟩).map Operation.name,
          firstPlace ⟨owner, members⟩ name < members.length := by
        intro name hname
        obtain ⟨o, ho, rfl⟩ := List.mem_map.mp hname
        exact firstPlace_lt_length_iff.mpr ⟨o, ho, rfl⟩
      have hkept : ∀ name ∈ ((operations ⟨owner, members⟩).map Operation.name).eraseDups,
          firstPlace ⟨owner, members ++ [member]⟩ name = firstPlace ⟨owner, members⟩ name := by
        intro name hname
        rw [firstPlace_concat, if_pos (hplace name (List.mem_eraseDups.mp hname))]
      have hold : ((operations ⟨owner, members⟩).map Operation.name).eraseDups.Pairwise fun a b =>
          firstPlace ⟨owner, members ++ [member]⟩ a <
            firstPlace ⟨owner, members ++ [member]⟩ b := by
        refine ih.imp_of_mem fun ha hb hlt => ?_
        rwa [hkept _ ha, hkept _ hb]
      rw [operations_concat]
      cases hop : member.operation? with
      | none => simpa using hold
      | some op =>
          rw [Option.toList_some, List.map_append, List.map_singleton, eraseDups_concat]
          split
          · exact hold
          · next hnew =>
              -- A new name comes first at the end, after all places so far.
              refine List.pairwise_append.mpr ⟨hold, List.pairwise_singleton _ _, ?_⟩
              intro name hname _ hlast
              rw [List.mem_singleton.mp hlast, hkept name hname, firstPlace_concat, if_neg]
              · exact Nat.lt_add_left _ (hplace name (List.mem_eraseDups.mp hname))
              · intro hlt
                obtain ⟨o, ho, hname⟩ := firstPlace_lt_length_iff.mp hlt
                exact hnew (List.mem_map.mpr ⟨o, ho, hname⟩)

/-! ## Sets -/

theorem groupsStably_overloadSets (i : Interface) : i.GroupsStably i.overloadSets where
  nodup := nodup_names_overloadSets i
  names := fun _ => mem_names_overloadSets_iff
  ordered := by
    rw [names_overloadSets]
    exact i.pairwise_firstPlace
  nonempty := fun _ => ne_nil_of_mem_overloadSets
  operations := fun _ => operations_of_mem_overloadSets

namespace GroupsStably

variable {sets sets' : List (String × List Operation)}

/-- The names decide the sets. -/
theorem eq_map (h : i.GroupsStably sets) :
    sets = (sets.map Prod.fst).map fun n => (n, i.operations.filter fun o => o.name == n) := by
  rw [List.map_map]
  refine List.map_id _ |>.symm.trans (List.map_congr_left fun set hset => ?_)
  exact Prod.ext rfl (h.operations set hset)

/-- The members decide the names: they are the same ones, and in the same order. -/
theorem names_eq (h : i.GroupsStably sets) (h' : i.GroupsStably sets') :
    sets.map Prod.fst = sets'.map Prod.fst := by
  have hperm : (sets.map Prod.fst).Perm (sets'.map Prod.fst) :=
    (List.perm_ext_iff_of_nodup h.nodup h'.nodup).mpr fun name =>
      (h.names name).trans (h'.names name).symm
  refine hperm.eq_of_pairwise ?_ h.ordered h'.ordered
  intro a b _ _ hab hba
  exact absurd hba (Nat.lt_asymm hab)

end GroupsStably

/-- There is one way to group operations stably. -/
theorem groupsStably_iff {sets : List (String × List Operation)} :
    i.GroupsStably sets ↔ sets = i.overloadSets := by
  constructor
  · intro h
    rw [h.eq_map, h.names_eq i.groupsStably_overloadSets, ← i.groupsStably_overloadSets.eq_map]
  · rintro rfl
    exact i.groupsStably_overloadSets

/-! ## No operation is lost or doubled -/

theorem flatMap_insertOperation_perm (op : Operation) (sets : List (String × List Operation)) :
    ((insertOperation op sets).flatMap Prod.snd).Perm (sets.flatMap Prod.snd ++ [op]) := by
  induction sets with
  | nil => exact .refl _
  | cons set sets ih =>
      obtain ⟨name, ops⟩ := set
      rw [insertOperation]
      split
      · rw [List.flatMap_cons, List.flatMap_cons, List.append_assoc, List.append_assoc]
        exact List.perm_append_comm.append_left ops
      · rw [List.flatMap_cons, List.flatMap_cons, List.append_assoc]
        exact ih.append_left ops

theorem flatMap_overloadSets_perm (i : Interface) :
    (i.overloadSets.flatMap Prod.snd).Perm i.operations := by
  rw [overloadSets]
  induction i.operations using List.reverseRecOn with
  | nil => exact .refl _
  | append_singleton ops op ih =>
      rw [List.foldl_append, List.foldl_cons, List.foldl_nil]
      exact (flatMap_insertOperation_perm op _).trans (ih.append_right [op])

/-- An operation is in one set only. -/
theorem existsUnique_overloadSet (ho : o ∈ i.operations) :
    ∃! set, set ∈ i.overloadSets ∧ o ∈ set.2 := by
  obtain ⟨set, hset, hfst⟩ := List.mem_map.mp (mem_names_overloadSets_iff.mpr ⟨o, ho, rfl⟩)
  refine ⟨set, ⟨hset, (mem_overloadSet_iff hset).mpr ⟨ho, hfst.symm⟩⟩, ?_⟩
  rintro set' ⟨hset', ho'⟩
  have hsame : set'.1 = set.1 := ((mem_overloadSet_iff hset').mp ho').2.symm.trans hfst.symm
  exact eq_of_mem_overloadSets hset' hset hsame

/-! ## Indices in order -/

/-- What is kept of the element at a place goes to the index of how much was kept before it. -/
theorem getElem?_filterMap_eq_some_iff {α β : Type} {f : α → Option β} {xs : List α} {b : β} :
    (xs.filterMap f)[index]? = some b ↔
      ∃ place a, xs[place]? = some a ∧ f a = some b ∧
        (xs.take place).countP (fun a => (f a).isSome) = index := by
  induction xs generalizing index with
  | nil => simp
  | cons x xs ih =>
      -- Either the element is the one at the head, or it stands one place further on.
      have hplaces : (∃ place a, (x :: xs)[place]? = some a ∧ f a = some b ∧
            ((x :: xs).take place).countP (fun a => (f a).isSome) = index) ↔
          (f x = some b ∧ index = 0) ∨ ∃ place a, xs[place]? = some a ∧ f a = some b ∧
            (if (f x).isSome then 1 else 0) + (xs.take place).countP (fun a => (f a).isSome) =
              index := by
        constructor
        · rintro ⟨place, a, ha, hb, hindex⟩
          cases place with
          | zero =>
              cases ha
              exact .inl ⟨hb, hindex.symm⟩
          | succ place =>
              rw [List.take_succ_cons, List.countP_cons, Nat.add_comm] at hindex
              exact .inr ⟨place, a, ha, hb, hindex⟩
        · rintro (⟨hb, rfl⟩ | ⟨place, a, ha, hb, hindex⟩)
          · exact ⟨0, x, rfl, hb, rfl⟩
          · refine ⟨place + 1, a, ha, hb, ?_⟩
            rwa [List.take_succ_cons, List.countP_cons, Nat.add_comm]
      rw [hplaces]
      cases hx : f x with
      | none =>
          rw [List.filterMap_cons_none hx, ih]
          simp
      | some c =>
          rw [List.filterMap_cons_some hx]
          cases index with
          | zero => simp
          | succ index =>
              rw [List.getElem?_cons_succ, ih]
              simp [Nat.add_comm 1]

/-- The index of an operation in its set is its rank at the place where it is declared. -/
theorem getElem?_overloadSet_iff (hset : set ∈ i.overloadSets) :
    set.2[index]? = some o ↔ ∃ place, i.DeclaresAt set.1 place o ∧ i.rank set.1 place = index := by
  rw [operations_of_mem_overloadSets hset, operations, List.filter_filterMap]
  refine getElem?_filterMap_eq_some_iff.trans (exists_congr fun place => ?_)
  constructor
  · rintro ⟨member, hmember, ho, hindex⟩
    obtain ⟨rfl, hname⟩ := Member.operationNamed?_eq_some_iff.mp ho
    exact ⟨⟨hmember, hname⟩, hindex⟩
  · rintro ⟨⟨hmember, hname⟩, hindex⟩
    exact ⟨_, hmember, Member.operationNamed?_eq_some_iff.mpr ⟨rfl, hname⟩, hindex⟩

theorem rank_le_rank (i : Interface) (name : String) (hplaces : place ≤ place') :
    i.rank name place ≤ i.rank name place' :=
  (List.take_sublist_take_left hplaces).countP_le

/-- Behind an operation the rank is larger than at its place. -/
theorem rank_lt_rank (ho : i.DeclaresAt name place o) (hplaces : place < place') :
    i.rank name place < i.rank name place' := by
  have hsome : ((Member.operation o).operationNamed? name).isSome = true :=
    Member.isSome_operationNamed?_iff.mpr ⟨o, rfl, ho.name_eq⟩
  have hnext : i.rank name (place + 1) = i.rank name place + 1 := by
    rw [rank, rank, List.take_add_one, ho.member, List.countP_append, Option.toList_some,
      List.countP_singleton, if_pos hsome]
  calc i.rank name place < i.rank name (place + 1) := by omega
    _ ≤ i.rank name place' := i.rank_le_rank name hplaces

end Interface
end IdlBindings
