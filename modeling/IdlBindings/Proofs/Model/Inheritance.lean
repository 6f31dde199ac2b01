import IdlBindings.Proofs.Model.Merging

/-!
# What an interface inherits

An interface has its declared members first and then what it inherits, and what it inherits depends
on its parent alone. The parent offers its members except constructors and those whose kind and name
the interface declares itself. Of these only the first of each kind and name is taken, since each
member is judged by those taken before it. So an offer is taken in full exactly if no kind and name
comes up twice in it, and of an operation that the parent overloads only the first signature is
inherited.
-/
namespace IdlBindings

namespace Body

variable {μ κ : Type} [DecidableEq κ] {key : μ → Option κ} {own xs : List μ} {k : κ}

theorem filter_offered (hk : ∀ x ∈ own, key x ≠ some k) :
    (offered key own xs).filter (fun x => key x = some k) = xs.filter fun x => key x = some k := by
  rw [offered, List.filter_filter]
  refine List.filter_congr fun x _ => ?_
  by_cases hx : key x = some k
  · simpa [hx] using hk
  · simp [hx]

/-- Of the members with one key, the first is taken and no other. -/
theorem filter_firstOfEach (xs : List μ) :
    (firstOfEach key xs).filter (fun x => key x = some k) =
      (xs.filter fun x => key x = some k).take 1 := by
  induction xs using induction_by_key key with
  | nil => rfl
  | cons x xs ih =>
      rw [List.filter_filter] at ih
      rw [firstOfEach_cons]
      by_cases hx : key x = some k
      · have hnone : xs.filter
            (fun y => decide (key y = some k) && decide (key y ≠ key x)) = [] := by
          rw [List.filter_eq_nil_iff]
          intro y _
          simp [hx]
        rw [hnone, List.take_nil] at ih
        rw [List.filter_cons_of_pos (by simpa using hx), ih,
          List.filter_cons_of_pos (by simpa using hx)]
        rfl
      · have hall : xs.filter (fun y => decide (key y = some k) && decide (key y ≠ key x)) =
            xs.filter fun y => key y = some k := by
          refine List.filter_congr fun y _ => ?_
          by_cases hy : key y = some k
          · simp [hy, Ne.symm hx]
          · simp [hy]
        rw [hall] at ih
        rw [List.filter_cons_of_neg (by simpa using hx), ih,
          List.filter_cons_of_neg (by simpa using hx)]

end Body

variable {ds : List Definition} {m : Model}

/-- **Inheritance is exact up to repeated keys.** An interface with a parent has its declared
members, followed by the first of each kind and name that the parent offers. This is the whole offer
exactly if no kind and name comes up twice in it. Under a kind and name that it does not declare it
has the first member of its parent and no other. -/
theorem inherited_members_exact (h : Model.ofDefinitions ds = .ok m) {c : Interface}
    (hc : c ∈ m.interfaces) {parent : String} (hparent : declaredParent? ds c.name = some parent) :
    ∃ p ∈ m.interfaces, p.name = parent ∧
      (let own := declaredMembers ds c.name
       let offer := Body.offered Member.key? own p.members
       c.members = own ++ Body.firstOfEach Member.key? offer ∧
         (c.members = own ++ offer ↔ offer.Pairwise fun x y => x.key? ≠ y.key?) ∧
         ∀ k, (∀ x ∈ own, x.key? ≠ some k) →
           c.members.filter (fun x => x.key? = some k) =
             (p.members.filter fun x => x.key? = some k).take 1) := by
  obtain ⟨bodies, hm⟩ := ofDefinitions_eq_ok_iff.mp h
  obtain ⟨_, _, hparents, hmembers⟩ := mergedInterfaces_spec hm.checked hm.merged
  obtain ⟨b, hb, hflat⟩ := hm.exists_body hc
  have hbname : b.name ∈ Body.names bodies := by
    rw [Body.name_of_find? hb]
    exact Body.mem_names_iff.mpr ⟨b, hb⟩
  have hbparent : b.parent = some parent := by
    rw [← hparent, ← hparents, Body.parentOf, hb]
    rfl
  have hbmembers : b.members = declaredMembers ds c.name := by
    rw [← hmembers, Body.membersOf, hb]
    rfl
  obtain ⟨a, ha, hheir⟩ := Body.flatten_heir Member.addsTo_keyed hbname hbparent hflat
  obtain ⟨a', inherited, ha', hp, haflat⟩ :=
    hm.exists_interface (Body.mem_names_iff.mpr ⟨a, ha⟩)
  obtain rfl : a = a' := Option.some.inj (ha.symm.trans ha')
  have hmembers : c.members = declaredMembers ds c.name ++ Body.firstOfEach Member.key?
      (Body.offered Member.key? (declaredMembers ds c.name) inherited) := by
    rw [hheir inherited haflat, Body.inherit_eq Member.addsTo_keyed, hbmembers]
  refine ⟨⟨parent, inherited⟩, hp, rfl, hmembers, ?_, ?_⟩
  · rw [hmembers, List.append_cancel_left_eq, Body.firstOfEach_eq_self_iff]
  · intro k hk
    have hown : (declaredMembers ds c.name).filter (fun x => x.key? = some k) = [] :=
      List.filter_eq_nil_iff.mpr fun x hx => by simpa using hk x hx
    rw [hmembers, List.filter_append, hown, List.nil_append, Body.filter_firstOfEach,
      Body.filter_offered hk]

/-- A parent with two signatures of an operation, and an heir that declares nothing. -/
def overloadedParent : List Definition :=
  [.interface ⟨"P", false, none,
      [.operation ⟨"f", [⟨"x", .named "long", false, false, none⟩], none, false, []⟩,
        .operation ⟨"f", [⟨"s", .named "DOMString", false, false, none⟩], none, false, []⟩], []⟩,
    .interface ⟨"C", false, some "P", [], []⟩]

theorem inherited_members_exact_overloaded :
    ∃ m, Model.ofDefinitions overloadedParent = .ok m ∧
      ∃ c ∈ m.interfaces, c.name = "C" ∧ ∃ p ∈ m.interfaces, p.name = "P" ∧
        c.members.filter (fun x => x.key? = some (.operation "f")) =
          (p.members.filter fun x => x.key? = some (.operation "f")).take 1 := by
  obtain ⟨m, hm, c, hc, hname⟩ : ∃ m, Model.ofDefinitions overloadedParent = .ok m ∧
      ∃ c ∈ m.interfaces, c.name = "C" := ⟨_, rfl, _, List.mem_of_getLast? rfl, rfl⟩
  have hparent : declaredParent? overloadedParent c.name = some "P" := by
    rw [hname]
    decide
  obtain ⟨p, hp, hpname, _, _, hfilter⟩ := inherited_members_exact hm hc hparent
  refine ⟨m, hm, c, hc, hname, p, hp, hpname, hfilter _ ?_⟩
  rw [hname]
  decide

/-- The heir of an overloaded operation loses all signatures but the first. -/
theorem overloads_not_inherited :
    ∃ m, Model.ofDefinitions overloadedParent = .ok m ∧
      ∃ c ∈ m.interfaces, ∃ p ∈ m.interfaces,
        declaredParent? overloadedParent c.name = some p.name ∧
          c.members ≠ declaredMembers overloadedParent c.name ++
            Body.offered Member.key? (declaredMembers overloadedParent c.name) p.members := by
  refine ⟨_, rfl, _, List.mem_of_getLast? rfl, _, List.mem_of_head? rfl, rfl, ?_⟩
  decide

end IdlBindings
