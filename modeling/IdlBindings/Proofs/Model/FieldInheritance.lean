import IdlBindings.Proofs.Model.Rejection

/-!
# What a dictionary inherits

A dictionary is put together from all its ancestors at once. Each field is judged by the name alone,
and the first field of a name counts, so going through the whole line of ancestors comes to the same
as inheriting from the parent, with all that the parent has inherited: the fields whose names the
dictionary does not use itself. Every name of an ancestor is there, and it means what the nearest
dictionary of the line declares.

## Main definitions

* `IsAncestry`: the names from a definition up to an ancestor without a parent
* `declaredFields`: the fields that a document declares for a dictionary
-/
namespace IdlBindings

/-- The names lead from a definition to its parent and on, up to one without a parent. -/
def IsAncestry (parent : String → Option String) (names : List String) : Prop :=
  names.IsChain (fun child above => parent child = some above) ∧
    ∀ last ∈ names.getLast?, parent last = none

namespace Body

variable {μ κ : Type} {key : μ → Option κ} {adds : List μ → μ → Bool} {own xs : List μ}
  {bodies : List (Body μ)} {b : Body μ} {above : List (Body μ)}

/-! ## Keys after inheriting -/

/-- Inheriting brings in no key for the second time. -/
theorem pairwise_inherit (hadds : Keyed key adds) (xs : List μ)
    (hown : own.Pairwise fun x y => key x ≠ key y) :
    (inherit adds own xs).Pairwise fun x y => key x ≠ key y := by
  induction xs using List.reverseRecOn with
  | nil => simpa [inherit] using hown
  | append_singleton xs z ih =>
      rw [inherit_concat]
      split
      · next hz =>
          rw [hadds] at hz
          rw [List.pairwise_append]
          refine ⟨ih, List.pairwise_singleton _ _, ?_⟩
          intro y hy w hw
          rw [List.mem_singleton.mp hw]
          exact hz.2 y hy
      · exact ih

variable [DecidableEq κ]

/-- Under each key the first member counts. -/
theorem find?_inherit (hadds : Keyed key adds) (own xs : List μ) (k : κ) :
    (inherit adds own xs).find? (fun x => key x = some k) =
      (own ++ xs).find? fun x => key x = some k := by
  induction xs using List.reverseRecOn with
  | nil => simp [inherit]
  | append_singleton xs z ih =>
      rw [inherit_concat, ← List.append_assoc, List.find?_append, ← ih]
      by_cases hz : adds (inherit adds own xs) z = true
      · rw [if_pos hz, List.find?_append]
      · rw [if_neg hz]
        by_cases hkey : key z = some k
        · -- What is turned down has a key that is taken.
          obtain ⟨y, hy, hyz⟩ : ∃ y ∈ inherit adds own xs, key y = key z := by
            rw [hadds] at hz
            simpa [hkey] using hz
          have hfound : ((inherit adds own xs).find? fun x => key x = some k).isSome = true :=
            List.find?_isSome.mpr ⟨y, hy, by simp [hyz, hkey]⟩
          rw [Option.or_of_isSome hfound]
        · simp [hkey]

/-- Inheriting keeps all keys, and brings in no others. -/
theorem exists_mem_inherit_iff (hadds : Keyed key adds) {k : κ} :
    (∃ x ∈ inherit adds own xs, key x = some k) ↔ ∃ x ∈ own ++ xs, key x = some k := by
  have hsame := congrArg Option.isSome (find?_inherit hadds own xs k)
  rw [Bool.eq_iff_iff, List.find?_isSome, List.find?_isSome] at hsame
  simpa only [decide_eq_true_eq] using hsame

/-! ## The line of ancestors -/

/-- Everything on the line of a body is found by its name and has the rest of the line above it. -/
theorem Lineage.exists_of_mem_line (h : Lineage bodies b above)
    (hb : find? bodies b.name = some b) {a : Body μ} (ha : a ∈ b :: above) :
    find? bodies a.name = some a ∧ ∃ rest, Lineage bodies a rest ∧ a :: rest <:+ b :: above := by
  induction h with
  | @root b hroot =>
      obtain rfl := List.mem_singleton.mp ha
      exact ⟨hb, [], .root hroot, List.suffix_rfl⟩
  | @heir b p above parent hparent hfind habove ih =>
      rcases List.mem_cons.mp ha with rfl | ha
      · exact ⟨hb, _, .heir hparent hfind habove, List.suffix_rfl⟩
      · obtain ⟨hfound, rest, hrest, hsuffix⟩ := ih (find?_name hfind) ha
        exact ⟨hfound, rest, hrest, hsuffix.trans (List.suffix_cons _ _)⟩

/-- The names on the line of a body are linked by the parents, as far as they go. -/
theorem Lineage.isAncestry (h : Lineage bodies b above) (hb : find? bodies b.name = some b) :
    IsAncestry (parentOf bodies) (names (b :: above)) := by
  induction h with
  | @root b hroot =>
      refine ⟨List.isChain_singleton _, ?_⟩
      intro last hlast
      obtain rfl : b.name = last := by simpa using hlast
      rw [parentOf_name hb, hroot]
  | @heir b p above parent hparent hfind habove ih =>
      have hlink : parentOf bodies b.name = some p.name := by
        rw [parentOf_name hb, hparent, name_of_find? hfind]
      obtain ⟨hchain, hend⟩ := ih (find?_name hfind)
      exact ⟨List.isChain_cons_cons.mpr ⟨hlink, hchain⟩, hend⟩

end Body

/-! ## Fields -/

namespace Field

variable {own xs : List Field}

theorem addsTo_keyed : Body.Keyed (fun f : Field => some f.name) addsTo := by
  intro fields f
  simp [addsTo]

theorem nodup_names_iff :
    (xs.map Field.name).Nodup ↔ xs.Pairwise fun x y => some x.name ≠ some y.name := by
  simp [List.Nodup, List.pairwise_map]

/-- Of fields with distinct names a dictionary inherits those whose names it does not use. -/
theorem inherit_of_nodup (hxs : (xs.map Field.name).Nodup) :
    Body.inherit addsTo own xs = own ++ xs.filter fun f => f.name ∉ own.map Field.name := by
  have hoffered : Body.offered (fun f : Field => some f.name) own xs =
      xs.filter fun f => f.name ∉ own.map Field.name := by
    refine List.filter_congr fun f _ => ?_
    rw [Bool.eq_iff_iff]
    simp
  rw [Body.inherit_eq addsTo_keyed, hoffered, Body.firstOfEach_eq_self_iff.mpr]
  exact (nodup_names_iff.mp hxs).filter _

theorem nodup_names_inherit (hown : (own.map Field.name).Nodup) (xs : List Field) :
    ((Body.inherit addsTo own xs).map Field.name).Nodup :=
  nodup_names_iff.mpr (Body.pairwise_inherit addsTo_keyed xs (nodup_names_iff.mp hown))

end Field

/-! ## Dictionaries before inheritance -/

/-- The fields that a definition declares for the dictionary with a name, if it is marked partial or
not as `part` says. -/
def Definition.fieldsFor (name : String) (part : Bool) : Definition → List Field
  | dictionary d => if d.name = name ∧ d.isPartial = part then d.fields else []
  | _ => []

/-- The fields declared for a dictionary: those of its definition, then those of its partial
ones. -/
def declaredFields (ds : List Definition) (name : String) : List Field :=
  ds.flatMap (Definition.fieldsFor name false) ++ ds.flatMap (Definition.fieldsFor name true)

section Dictionaries

variable {ds : List Definition} {bodies : List (Body Member)} {m : Model} {n : String}
  {b : Body Field} {above : List (Body Field)}

theorem gathered_dictionaryBody? (part : Bool) :
    Body.gathered (ds.filterMap (Definition.dictionaryBody? part)) n =
      ds.flatMap (Definition.fieldsFor n part) := by
  refine gathered_filterMap fun d => ?_
  cases d with
  | dictionary d => by_cases h : d.isPartial = part <;>
      simp [Definition.dictionaryBody?, Definition.fieldsFor, h]
  | _ => rfl

theorem members_eq_declaredFields (h : Definition.check [] ds = .ok ())
    (hb : Body.find? (mergedDictionaries ds) n = some b) : b.members = declaredFields ds n := by
  have hnodup := nodup_names_of_check (fun _ _ => declared?_of_dictionaryBody?) h
  have hmembers : Body.membersOf (mergedDictionaries ds) n = declaredFields ds n := by
    rw [mergedDictionaries, Body.membersOf_withPartials, Body.membersOf_eq_gathered hnodup,
      gathered_dictionaryBody?, gathered_dictionaryBody?, declaredFields]
  rw [← hmembers, Body.membersOf, hb]
  rfl

/-! ## Dictionaries of the model -/

/-- Every dictionary of the document is found in the model, with what its fields come to after
inheritance. -/
theorem ModelOf.exists_dictionary (h : ModelOf ds bodies m)
    (hb : Body.find? (mergedDictionaries ds) n = some b) :
    ∃ d, m.dictionary? n = some d ∧
      Body.flatten .dictionary Field.addsTo (mergedDictionaries ds) b = .ok d.fields := by
  obtain ⟨_, hd, fields, _, rfl⟩ := exists_right_of_forall₂ h.dictionaries (Body.mem_of_find? hb)
  obtain ⟨d, hfound⟩ : ∃ d, m.dictionary? n = some d := by
    rw [← Option.isSome_iff_exists]
    exact List.find?_isSome.mpr ⟨_, hd, by simpa using Body.name_of_find? hb⟩
  -- The dictionary that is found stands for a body with the same name, which can only be `b`.
  obtain ⟨b', hb', fields', hflat, rfl⟩ :=
    exists_right_of_forall₂ h.dictionaries.flip (List.mem_of_find?_eq_some hfound)
  have hname : b'.name = n := by simpa using List.find?_some hfound
  have hfind := Body.find?_of_mem (nodup_names_mergedDictionaries h.checked) hb'
  rw [hname] at hfind
  obtain rfl := Option.some.inj (hb.symm.trans hfind)
  exact ⟨_, hfound, hflat⟩

/-- A dictionary and its ancestors: its fields are the members of all of them, judged by their
names. -/
theorem ModelOf.exists_lineage (h : ModelOf ds bodies m)
    (hb : Body.find? (mergedDictionaries ds) n = some b) :
    ∃ d above, m.dictionary? n = some d ∧ Body.Lineage (mergedDictionaries ds) b above ∧
      d.fields = Body.inherit Field.addsTo b.members (above.flatMap Body.members) := by
  obtain ⟨d, hd, hflat⟩ := h.exists_dictionary hb
  obtain ⟨above, habove, hfields⟩ := Body.flatten_eq_ok_iff.mp hflat
  have hname := Body.mem_names_iff.mpr ⟨b, Body.find?_name hb⟩
  exact ⟨d, above, hd, Body.lineage_of_ancestors hname habove, hfields.symm⟩

/-- A dictionary with a parent inherits from what the parent is in the model. -/
theorem ModelOf.exists_parent (h : ModelOf ds bodies m) {d : Dictionary} {parent : String}
    (hb : Body.find? (mergedDictionaries ds) n = some b) (hd : m.dictionary? n = some d)
    (hparent : b.parent = some parent) :
    IsDeclared .dictionary ds parent ∧ ∃ p, m.dictionary? parent = some p ∧
      d.fields = Body.inherit Field.addsTo b.members p.fields := by
  obtain ⟨d', hd', hflat⟩ := h.exists_dictionary hb
  obtain rfl := Option.some.inj (hd.symm.trans hd')
  have hname := Body.mem_names_iff.mpr ⟨b, Body.find?_name hb⟩
  obtain ⟨a, ha, hinherited⟩ := Body.flatten_heir Field.addsTo_keyed hname hparent hflat
  obtain ⟨p, hp, hflat'⟩ := h.exists_dictionary ha
  have hdeclared := (represents_dictionaries.mem_names parent).mp (Body.mem_names_iff.mpr ⟨a, ha⟩)
  exact ⟨hdeclared, p, hp, hinherited _ hflat'⟩

theorem ModelOf.nodup_fields (h : ModelOf ds bodies m) {d : Dictionary}
    (hn : IsDeclared .dictionary ds n) (hd : m.dictionary? n = some d)
    (hdistinct : ((declaredFields ds n).map Field.name).Nodup) :
    (d.fields.map Field.name).Nodup := by
  obtain ⟨b, hb⟩ := Body.mem_names_iff.mp ((represents_dictionaries.mem_names n).mpr hn)
  obtain ⟨d', above, hd', _, hfields⟩ := h.exists_lineage hb
  obtain rfl := Option.some.inj (hd.symm.trans hd')
  rw [hfields, members_eq_declaredFields h.checked hb]
  exact Field.nodup_names_inherit hdistinct _

/-- A name means what the nearest dictionary of the line declares. -/
theorem find?_inherit_line (hcheck : Definition.check [] ds = .ok ())
    (hline : ∀ a ∈ b :: above, Body.find? (mergedDictionaries ds) a.name = some a) (name : String) :
    (Body.inherit Field.addsTo b.members (above.flatMap Body.members)).find?
        (fun f => f.name = name) =
      (Body.names (b :: above)).findSome? fun a =>
        (declaredFields ds a).find? fun f => f.name = name := by
  have hfirst := Body.find?_inherit Field.addsTo_keyed b.members (above.flatMap Body.members) name
  simp only [Option.some.injEq] at hfirst
  have hdeclared : (b :: above).flatMap Body.members =
      (Body.names (b :: above)).flatMap (declaredFields ds) := by
    rw [Body.names, List.flatMap_map]
    exact List.flatMap_congr fun a ha => members_eq_declaredFields hcheck (hline a ha)
  rw [hfirst, ← List.flatMap_cons, hdeclared, List.find?_flatMap]

/-- What an ancestor has inherited is known to its heir by name. -/
theorem name_mem_of_ancestor {a : Body Field} {rest : List (Body Field)}
    (hsuffix : a :: rest <:+ b :: above) {f : Field}
    (hf : f ∈ Body.inherit Field.addsTo a.members (rest.flatMap Body.members)) :
    f.name ∈ (Body.inherit Field.addsTo b.members (above.flatMap Body.members)).map
      Field.name := by
  obtain ⟨g, hg, hname⟩ := (Body.exists_mem_inherit_iff Field.addsTo_keyed).mp ⟨f, hf, rfl⟩
  obtain ⟨owner, howner, hg⟩ : ∃ owner ∈ a :: rest, g ∈ owner.members :=
    List.mem_flatMap.mp hg
  have hline : g ∈ (b :: above).flatMap Body.members :=
    List.mem_flatMap.mpr ⟨owner, hsuffix.subset howner, hg⟩
  obtain ⟨x, hx, hxname⟩ :=
    (Body.exists_mem_inherit_iff Field.addsTo_keyed).mpr ⟨g, hline, hname⟩
  exact List.mem_map.mpr ⟨x, hx, Option.some.inj hxname⟩

/-- **Fields are inherited from the parent, and the nearest declaration counts.** Where no
dictionary declares a name twice, a dictionary has its own fields followed by those of its parent
whose names it does not use. So names are distinct, all names of all ancestors are there, and each
means what the nearest dictionary declares. -/
theorem inherited_fields_exact (h : Model.ofDefinitions ds = .ok m)
    (hdistinct : ∀ d, IsDeclared .dictionary ds d →
      ((declaredFields ds d).map Field.name).Nodup)
    (hn : IsDeclared .dictionary ds n) :
    ∃ c, m.dictionary? n = some c ∧
      (effectiveParent? .dictionary ds n = none → c.fields = declaredFields ds n) ∧
      (∀ parent, effectiveParent? .dictionary ds n = some parent →
        ∃ p, m.dictionary? parent = some p ∧
          c.fields = declaredFields ds n ++
            p.fields.filter fun f => f.name ∉ (declaredFields ds n).map Field.name) ∧
      (c.fields.map Field.name).Nodup ∧
      ∃ ancestors, IsAncestry (effectiveParent? .dictionary ds) (n :: ancestors) ∧
        (∀ a ∈ ancestors, ∃ p, m.dictionary? a = some p ∧
          ∀ f ∈ p.fields, f.name ∈ c.fields.map Field.name) ∧
        ∀ name, c.fields.find? (fun f => f.name = name) =
          (n :: ancestors).findSome? fun a =>
            (declaredFields ds a).find? fun f => f.name = name := by
  obtain ⟨_, hm⟩ := ofDefinitions_eq_ok_iff.mp h
  obtain ⟨b, hb⟩ := Body.mem_names_iff.mp ((represents_dictionaries.mem_names n).mpr hn)
  obtain rfl := Body.name_of_find? hb
  obtain ⟨c, above, hc, hlineage, hfields⟩ := hm.exists_lineage hb
  have hparents : Body.parentOf (mergedDictionaries ds) = effectiveParent? .dictionary ds :=
    represents_dictionaries.parentOf_eq
  have hline := fun a (ha : a ∈ b :: above) => hlineage.exists_of_mem_line hb ha
  have hown := members_eq_declaredFields hm.checked hb
  refine ⟨c, hc, ?_, ?_, ?_, Body.names above, ?_, ?_, ?_⟩
  · intro hroot
    rw [← hparents, Body.parentOf_name hb] at hroot
    obtain rfl := hlineage.unique (.root hroot)
    rw [hfields, ← hown]
    rfl
  · intro parent hparent
    rw [← hparents, Body.parentOf_name hb] at hparent
    obtain ⟨hdeclared, p, hp, hinherited⟩ := hm.exists_parent hb hc hparent
    have hnodup := hm.nodup_fields hdeclared hp (hdistinct _ hdeclared)
    rw [← hown]
    exact ⟨p, hp, hinherited.trans (Field.inherit_of_nodup hnodup)⟩
  · exact hm.nodup_fields hn hc (hdistinct _ hn)
  · rw [← hparents]
    exact hlineage.isAncestry hb
  · intro name hname
    obtain ⟨a, ha, rfl⟩ := List.mem_map.mp hname
    obtain ⟨hfind, rest, hrest, hsuffix⟩ := hline a (List.mem_cons_of_mem _ ha)
    obtain ⟨p, above', hp, hlineage', hfields'⟩ := hm.exists_lineage hfind
    obtain rfl := hrest.unique hlineage'
    refine ⟨p, hp, ?_⟩
    intro f hf
    rw [hfields'] at hf
    rw [hfields]
    exact name_mem_of_ancestor hsuffix hf
  · intro name
    rw [hfields]
    exact find?_inherit_line hm.checked (fun a ha => (hline a ha).1) name

/-- Three dictionaries in a line, the lowest one first. The middle one has partial definitions only,
and each declares a name of the one above it anew. -/
def layered : List Definition :=
  [.dictionary ⟨"Leaf", false, some "Branch", [⟨"width", .named "double", true, none⟩]⟩,
    .dictionary ⟨"Branch", true, some "Trunk", [⟨"tone", .named "DOMString", false, none⟩]⟩,
    .dictionary ⟨"Trunk", false, none,
      [⟨"height", .named "long", false, some "1"⟩, ⟨"tone", .named "long", false, some "2"⟩]⟩,
    .dictionary ⟨"Branch", true, none, [⟨"width", .named "long", false, some "3"⟩]⟩]

theorem inherited_fields_exact_layered :
    ∃ m c p, Model.ofDefinitions layered = .ok m ∧
      (∀ d, IsDeclared .dictionary layered d →
        ((declaredFields layered d).map Field.name).Nodup) ∧
      m.dictionary? "Leaf" = some c ∧ m.dictionary? "Branch" = some p ∧
      c.fields = [⟨"width", .named "double", true, none⟩] ++
        p.fields.filter (fun f => f.name ∉ ["width"]) ∧
      (c.fields.map Field.name).Nodup ∧
      ∃ ancestors, IsAncestry (effectiveParent? .dictionary layered) ("Leaf" :: ancestors) ∧
        ∀ name, c.fields.find? (fun f => f.name = name) =
          ("Leaf" :: ancestors).findSome? fun a =>
            (declaredFields layered a).find? fun f => f.name = name := by
  obtain ⟨m, hm⟩ : ∃ m, Model.ofDefinitions layered = .ok m := ⟨_, rfl⟩
  have hdistinct : ∀ d ∈ (headers .dictionary layered).map Header.name,
      ((declaredFields layered d).map Field.name).Nodup := by decide
  have hleaf : "Leaf" ∈ (headers .dictionary layered).map Header.name := by decide
  obtain ⟨c, hc, _, hparent, hnodup, ancestors, hancestry, _, hnearest⟩ :=
    inherited_fields_exact hm hdistinct hleaf
  obtain ⟨p, hp, hfields⟩ := hparent "Branch" (by decide)
  exact ⟨m, c, p, hm, hdistinct, hc, hp, hfields, hnodup, ancestors, hancestry, hnearest⟩

end Dictionaries

end IdlBindings
