import IdlBindings.Proofs.Model.Ancestry
import IdlBindings.Proofs.Model.Enumerators
import IdlBindings.Proofs.Model.Naming
import Mathlib.Data.List.Duplicate

/-!
# Documents that have no model

What makes a document inconsistent is said here about its definitions alone: names declared twice,
literals with one enumerator, includes statements that lack a side, and links to parents that lead
astray. The steps that put a document together find these in an order of their own, and the first
one that fails hides the others. But no step fails without reason, and none lets a reason pass.

## Main definitions

* `Inconsistent`: the reasons to reject a document
* `ModelFault.IsTrueOf`: what a fault says about the document
-/
namespace IdlBindings

/-! ## Reasons and faults -/

/-- The reasons to reject a document. -/
inductive Inconsistent (ds : List Definition) : Prop
  | declaredTwice (n : String) (h : List.Duplicate n (ds.filterMap Definition.declared?))
  | collision (d : EnumDef) (first second : String) (hd : .enumeration d ∈ ds)
      (h : Collision d.values first second)
  | missingMixin (d : IncludesDef) (hd : .includes d ∈ ds)
      (h : ∀ mixin : MixinDef, .mixin mixin ∈ ds → mixin.name ≠ d.mixin)
  | missingTarget (d : IncludesDef) (hd : .includes d ∈ ds)
      (h : ∀ interface : InterfaceDef, .interface interface ∈ ds → interface.name ≠ d.target)
  | astray (kind : InheritingKind) (n : String) (hn : IsDeclared kind ds n)
      (h : LeadsAstray (effectiveParent? kind ds) (IsDeclared kind ds) n)

/-- The fault is one of the document: what it names is there, or is missing, as it says. -/
def ModelFault.IsTrueOf (ds : List Definition) : ModelFault → Prop
  | duplicateDefinition name => List.Duplicate name (ds.filterMap Definition.declared?)
  | enumeratorCollision enum first second identifier =>
    ∃ d : EnumDef, .enumeration d ∈ ds ∧ d.name = enum ∧ Collision d.values first second ∧
      identifier = enumIdentifier second
  | unresolvedInclude target mixin missing =>
    .includes ⟨target, mixin⟩ ∈ ds ∧
      ((missing = mixin ∧ ∀ d : MixinDef, .mixin d ∈ ds → d.name ≠ missing) ∨
        (missing = target ∧ ∀ d : InterfaceDef, .interface d ∈ ds → d.name ≠ missing))
  | unresolvedAncestor kind name ancestor =>
    IsDangling (effectiveParent? kind ds) (IsDeclared kind ds) name ancestor
  | inheritanceCycle kind names => IsCircular (effectiveParent? kind ds) names

variable {ds : List Definition} {kind : InheritingKind} {n : String} {fault : ModelFault}

/-- A fault that is true is a reason to reject the document. -/
theorem ModelFault.IsTrueOf.inconsistent (h : fault.IsTrueOf ds) : Inconsistent ds := by
  cases fault with
  | duplicateDefinition name => exact .declaredTwice name h
  | enumeratorCollision enum first second identifier =>
      obtain ⟨d, hd, _, hcollision, _⟩ := h
      exact .collision d first second hd hcollision
  | unresolvedInclude target mixin missing =>
      obtain ⟨hd, ⟨rfl, hnone⟩ | ⟨rfl, hnone⟩⟩ := h
      · exact .missingMixin _ hd hnone
      · exact .missingTarget _ hd hnone
  | unresolvedAncestor kind name ancestor => exact .astray kind name h.1 (IsDangling.leadsAstray h)
  | inheritanceCycle kind names =>
      obtain ⟨start, above, hlink, hastray⟩ := IsCircular.exists_leadsAstray h
      exact .astray kind start (isDeclared_of_effectiveParent? hlink) hastray

/-! ## The check in document order -/

/-- The check stops at a name that is there already or at an enumeration, or goes on. -/
theorem Definition.check_cons_eq_error {d : Definition} {name : String} {names : List String}
    (hd : d.declared? = some name) (h : check names (d :: ds) = .error fault) :
    (name ∈ names ∧ fault = .duplicateDefinition name) ∨
      (∃ e, d.enum? = some e ∧ e.toEnumeration = .error fault) ∨
        check (name :: names) ds = .error fault := by
  rw [check] at h
  simp only [hd] at h
  by_cases hname : name ∈ names
  · rw [if_pos hname] at h
    exact .inl ⟨hname, (Except.error.inj h).symm⟩
  · rw [if_neg hname] at h
    cases he : d.enum? with
    | none => exact .inr (.inr (by simpa [he] using h))
    | some e =>
        simp only [he, bind_eq_error_iff] at h
        rcases h with h | ⟨_, _, h⟩
        · exact .inr (.inl ⟨e, rfl, h⟩)
        · exact .inr (.inr h)

/-- The check fails at a name for the second time, or at an enumeration. -/
theorem Definition.check_eq_error {names : List String} (h : check names ds = .error fault) :
    (∃ name, fault = .duplicateDefinition name ∧
        List.Duplicate name (names ++ ds.filterMap declared?)) ∨
      ∃ e ∈ ds.filterMap enum?, e.toEnumeration = .error fault := by
  induction ds generalizing names with
  | nil => simp [check] at h
  | cons d ds ih =>
      cases hd : d.declared? with
      | none =>
          rw [check_cons_of_none hd] at h
          rw [List.filterMap_cons_none hd, List.filterMap_cons_none (enum?_eq_none_of_declared? hd)]
          exact ih h
      | some name =>
          rw [List.filterMap_cons_some hd]
          simp only [List.duplicate_iff_two_le_count, List.count_append, List.count_cons,
            List.mem_filterMap] at ih ⊢
          rcases check_cons_eq_error hd h with ⟨hname, rfl⟩ | ⟨e, he, hfault⟩ | hrest
          · have hcount := List.one_le_count_iff.mpr hname
            refine .inl ⟨name, rfl, ?_⟩
            simp
            omega
          · exact .inr ⟨e, ⟨d, by simp, he⟩, hfault⟩
          · rcases ih hrest with ⟨name', hfault, hcount⟩ | ⟨e, ⟨d', hd', he⟩, hfault⟩
            · rw [List.count_cons] at hcount
              exact .inl ⟨name', hfault, by omega⟩
            · exact .inr ⟨e, ⟨d', by simp [hd'], he⟩, hfault⟩

/-! ## Includes statements -/

/-- Includes statements fail at one that lacks a side. -/
theorem foldlM_applyIncludes_eq_error {mixins bodies : List (Body Member)}
    {includes : List IncludesDef}
    (h : includes.foldlM (applyIncludes mixins) bodies = .error fault) :
    ∃ d ∈ includes, ∃ missing, fault = .unresolvedInclude d.target d.mixin missing ∧
      ((missing = d.mixin ∧ missing ∉ Body.names mixins) ∨
        (missing = d.target ∧ missing ∉ Body.names bodies)) := by
  induction includes generalizing bodies with
  | nil => cases h
  | cons d includes ih =>
      rw [List.foldlM_cons, bind_eq_error_iff] at h
      rcases h with h | ⟨next, hnext, h⟩
      · refine ⟨d, List.mem_cons_self, ?_⟩
        rw [applyIncludes] at h
        cases hm : Body.find? mixins d.mixin with
        | none =>
            rw [hm, Except.error.injEq] at h
            refine ⟨_, h.symm, .inl ⟨rfl, ?_⟩⟩
            simp [Body.mem_names_iff, hm]
        | some mixin =>
            simp only [hm] at h
            by_cases ht : (Body.find? bodies d.target).isSome = true
            · simp [ht] at h
            · rw [if_neg ht, Except.error.injEq] at h
              refine ⟨_, h.symm, .inr ⟨rfl, ?_⟩⟩
              rwa [Body.mem_names_iff, ← Option.isSome_iff_exists]
      · obtain ⟨_, _, rfl⟩ := applyIncludes_eq_ok_iff.mp hnext
        obtain ⟨d', hd', missing, hfault, hmissing⟩ := ih h
        rw [Body.names_extend] at hmissing
        exact ⟨d', List.mem_cons_of_mem d hd', missing, hfault, hmissing⟩

/-- Where includes statements succeed none lacks a side. -/
theorem mem_names_of_foldlM_applyIncludes {mixins bodies bodies' : List (Body Member)}
    {includes : List IncludesDef} {d : IncludesDef}
    (h : includes.foldlM (applyIncludes mixins) bodies = .ok bodies') (hd : d ∈ includes) :
    d.mixin ∈ Body.names mixins ∧ d.target ∈ Body.names bodies := by
  induction includes generalizing bodies with
  | nil => cases hd
  | cons d' includes ih =>
      rw [List.foldlM_cons, bind_eq_ok_iff] at h
      obtain ⟨next, hnext, hrest⟩ := h
      obtain ⟨hmixin, htarget, rfl⟩ := applyIncludes_eq_ok_iff.mp hnext
      rcases List.mem_cons.mp hd with rfl | hd
      · exact ⟨hmixin, htarget⟩
      · simpa using ih hrest hd

/-! ## The classes of definitions -/

theorem mem_names_mixins_iff :
    n ∈ Body.names (Body.withPartials (ds.filterMap (Definition.mixinBody? false))
        (ds.filterMap (Definition.mixinBody? true))) ↔
      ∃ d : MixinDef, .mixin d ∈ ds ∧ d.name = n := by
  have hnames : ∀ part, n ∈ Body.names (ds.filterMap (Definition.mixinBody? part)) ↔
      ∃ d : MixinDef, .mixin d ∈ ds ∧ d.isPartial = part ∧ d.name = n := by
    intro part
    simp only [Body.names, List.mem_map, List.mem_filterMap]
    constructor
    · rintro ⟨b, ⟨d, hd, hb⟩, rfl⟩
      cases d with
      | mixin d =>
          obtain ⟨hpart, rfl⟩ : d.isPartial = part ∧ _ = b := by
            simpa [Definition.mixinBody?] using hb
          exact ⟨d, hd, hpart, rfl⟩
      | _ => simp [Definition.mixinBody?] at hb
    · rintro ⟨d, hd, rfl, rfl⟩
      exact ⟨⟨d.name, none, d.members⟩, ⟨_, hd, by simp [Definition.mixinBody?]⟩, rfl⟩
  rw [Body.mem_names_withPartials, hnames, hnames]
  constructor
  · rintro (⟨d, hd, _, hn⟩ | ⟨d, hd, _, hn⟩) <;> exact ⟨d, hd, hn⟩
  · rintro ⟨d, hd, hn⟩
    cases hp : d.isPartial with
    | true => exact .inr ⟨d, hd, hp, hn⟩
    | false => exact .inl ⟨d, hd, hp, hn⟩

theorem isDeclared_interface_iff :
    IsDeclared .interface ds n ↔ ∃ d : InterfaceDef, .interface d ∈ ds ∧ d.name = n := by
  rw [isDeclared_iff]
  simp only [headers, List.mem_filterMap]
  constructor
  · rintro ⟨_, ⟨d, hd, hheader⟩, rfl⟩
    cases d with
    | interface d =>
        obtain rfl := Option.some.inj hheader
        exact ⟨d, hd, rfl⟩
    | _ => cases hheader
  · rintro ⟨d, hd, rfl⟩
    exact ⟨_, ⟨_, hd, rfl⟩, rfl⟩

theorem mem_filterMap_enum?_iff {e : EnumDef} :
    e ∈ ds.filterMap Definition.enum? ↔ .enumeration e ∈ ds := by
  rw [List.mem_filterMap]
  constructor
  · rintro ⟨d, hd, he⟩
    cases d <;> simp_all [Definition.enum?]
  · intro hd
    exact ⟨_, hd, rfl⟩

theorem mem_filterMap_includes?_iff {d : IncludesDef} :
    d ∈ ds.filterMap Definition.includes? ↔ .includes d ∈ ds := by
  rw [List.mem_filterMap]
  constructor
  · rintro ⟨d', hd', hd⟩
    cases d' <;> simp_all [Definition.includes?]
  · intro hd
    exact ⟨_, hd, rfl⟩

theorem represents_interfaces {bodies : List (Body Member)} (h : mergedInterfaces ds = .ok bodies) :
    Represents .interface ds bodies := by
  obtain ⟨hnames, hparents, _⟩ := foldlM_applyIncludes h
  constructor
  · rw [hnames]
    exact represents_mergedBases.mem_names
  · rw [funext hparents, represents_mergedBases.parentOf_eq]

theorem nodup_names_mergedDictionaries (h : Definition.check [] ds = .ok ()) :
    (Body.names (mergedDictionaries ds)).Nodup :=
  Body.nodup_names_withPartials (nodup_names_of_check (fun _ _ => declared?_of_dictionaryBody?) h)

/-! ## Ancestors -/

section Ancestors

variable {μ : Type} {adds : List μ → μ → Bool} {bodies : List (Body μ)} {b : Body μ}

/-- Ancestors that are not found are to be blamed on the document. -/
theorem Represents.isTrueOf (hbodies : Represents kind ds bodies)
    (hb : Body.find? bodies b.name = some b)
    (h : Body.flatten kind adds bodies b = .error fault) : fault.IsTrueOf ds := by
  rw [Body.flatten, bind_eq_error_iff] at h
  rcases h with h | ⟨_, _, h⟩
  · rcases Body.ancestors_eq_error hb h with
      ⟨name, ancestor, rfl, hdangling⟩ | ⟨names, rfl, hcircular⟩
    · simpa only [ModelFault.IsTrueOf, hbodies.parentOf_eq, hbodies.mem_names] using hdangling
    · rwa [hbodies.parentOf_eq] at hcircular
  · cases h

/-- Where all ancestors are found no link leads astray. -/
theorem Represents.not_leadsAstray (hbodies : Represents kind ds bodies)
    (hb : Body.find? bodies n = some b) {members : List μ}
    (h : Body.flatten kind adds bodies b = .ok members) :
    ¬LeadsAstray (effectiveParent? kind ds) (IsDeclared kind ds) n := by
  obtain rfl := Body.name_of_find? hb
  obtain ⟨above, habove, _⟩ := Body.flatten_eq_ok_iff.mp h
  have hlineage := Body.lineage_of_ancestors (Body.mem_names_iff.mpr ⟨b, hb⟩) habove
  simpa only [hbodies.parentOf_eq, hbodies.mem_names] using hlineage.not_leadsAstray hb

end Ancestors

/-! ## Rejected documents -/

theorem isTrueOf_of_mergedInterfaces (h : mergedInterfaces ds = .error fault) :
    fault.IsTrueOf ds := by
  obtain ⟨d, hd, missing, rfl, hmissing⟩ := foldlM_applyIncludes_eq_error h
  refine ⟨(mem_filterMap_includes?_iff).mp hd, hmissing.imp ?_ ?_⟩
  · rintro ⟨hside, hnone⟩
    refine ⟨hside, fun mixin hmixin hname => ?_⟩
    exact hnone (mem_names_mixins_iff.mpr ⟨mixin, hmixin, hname⟩)
  · rintro ⟨hside, hnone⟩
    refine ⟨hside, fun interface hinterface hname => ?_⟩
    rw [represents_mergedBases.mem_names, isDeclared_interface_iff] at hnone
    exact hnone ⟨interface, hinterface, hname⟩

theorem isTrueOf_of_toEnumeration {e : EnumDef} (he : e ∈ ds.filterMap Definition.enum?)
    (h : e.toEnumeration = .error fault) : fault.IsTrueOf ds := by
  obtain ⟨first, second, hcollision, rfl⟩ := collision_of_toEnumeration h
  exact ⟨e, mem_filterMap_enum?_iff.mp he, rfl, hcollision, rfl⟩

/-- **No fault without a reason.** Whichever step fails first, what it says is so. -/
theorem isTrueOf_of_ofDefinitions (h : Model.ofDefinitions ds = .error fault) :
    fault.IsTrueOf ds := by
  simp only [Model.ofDefinitions, bind_eq_error_iff] at h
  rcases h with hcheck | ⟨_, hcheck, henums | ⟨enums, _, hmerged | ⟨bodies, hmerged,
    hinterfaces | ⟨_, _, hdictionaries | ⟨_, _, hdone⟩⟩⟩⟩⟩
  · rcases Definition.check_eq_error hcheck with ⟨name, rfl, hname⟩ | ⟨e, he, hfault⟩
    · exact hname
    · exact isTrueOf_of_toEnumeration he hfault
  · obtain ⟨e, he, hfault⟩ := exists_of_mapM_eq_error henums
    exact isTrueOf_of_toEnumeration he hfault
  · exact isTrueOf_of_mergedInterfaces hmerged
  · obtain ⟨b, hb, hfault⟩ := exists_of_mapM_eq_error hinterfaces
    have hnodup := (mergedInterfaces_spec hcheck hmerged).2.1
    rcases bind_eq_error_iff.mp hfault with hfault | ⟨_, _, hfault⟩
    · exact (represents_interfaces hmerged).isTrueOf (Body.find?_of_mem hnodup hb) hfault
    · cases hfault
  · obtain ⟨b, hb, hfault⟩ := exists_of_mapM_eq_error hdictionaries
    have hnodup := nodup_names_mergedDictionaries hcheck
    rcases bind_eq_error_iff.mp hfault with hfault | ⟨_, _, hfault⟩
    · exact represents_dictionaries.isTrueOf (Body.find?_of_mem hnodup hb) hfault
    · cases hfault
  · cases hdone

/-- **No reason is let pass.** In a document that has a model every step has succeeded, and each
step has looked for one of the reasons. -/
theorem not_inconsistent_of_ofDefinitions {m : Model} (h : Model.ofDefinitions ds = .ok m) :
    ¬Inconsistent ds := by
  obtain ⟨bodies, hm⟩ := ofDefinitions_eq_ok_iff.mp h
  obtain ⟨hnodup, _, henums⟩ := Definition.check_eq_ok_iff.mp hm.checked
  have hsides := fun d (hd : Definition.includes d ∈ ds) =>
    mem_names_of_foldlM_applyIncludes hm.merged (mem_filterMap_includes?_iff.mpr hd)
  intro hbad
  cases hbad with
  | declaredTwice n h => exact List.nodup_iff_forall_not_duplicate.mp hnodup n h
  | collision d first second hd h =>
      obtain ⟨e, he⟩ := henums d (mem_filterMap_enum?_iff.mpr hd)
      exact not_collision_of_toEnumeration he h
  | missingMixin d hd h =>
      obtain ⟨mixin, hmixin, hname⟩ := mem_names_mixins_iff.mp (hsides d hd).1
      exact h mixin hmixin hname
  | missingTarget d hd h =>
      have htarget := (hsides d hd).2
      rw [represents_mergedBases.mem_names, isDeclared_interface_iff] at htarget
      obtain ⟨interface, hinterface, hname⟩ := htarget
      exact h interface hinterface hname
  | astray kind n hn h =>
      cases kind with
      | interface =>
          have hbodies := represents_interfaces hm.merged
          obtain ⟨b, _, hb, _, hflat⟩ := hm.exists_interface ((hbodies.mem_names n).mpr hn)
          exact hbodies.not_leadsAstray hb hflat h
      | dictionary =>
          have hbodies := @represents_dictionaries ds
          obtain ⟨b, hb⟩ := Body.mem_names_iff.mp ((hbodies.mem_names n).mpr hn)
          obtain ⟨_, _, fields, hflat, _⟩ :=
            exists_right_of_forall₂ hm.dictionaries (Body.mem_of_find? hb)
          exact hbodies.not_leadsAstray hb hflat h

/-- **A document is rejected exactly if it is inconsistent**, and then for something that is so. -/
theorem rejected_iff_inconsistent (ds : List Definition) :
    ((∃ fault, Model.ofDefinitions ds = .error fault) ↔ Inconsistent ds) ∧
      ∀ fault, Model.ofDefinitions ds = .error fault → fault.IsTrueOf ds := by
  refine ⟨⟨?_, ?_⟩, fun fault => isTrueOf_of_ofDefinitions⟩
  · rintro ⟨fault, h⟩
    exact (isTrueOf_of_ofDefinitions h).inconsistent
  · intro hbad
    cases h : Model.ofDefinitions ds with
    | error fault => exact ⟨fault, rfl⟩
    | ok m => exact absurd hbad (not_inconsistent_of_ofDefinitions h)

/-- A dictionary inherits from two that inherit from each other, one of them only by what a partial
definition says. -/
def circling : List Definition :=
  [.dictionary ⟨"B", true, some "C", []⟩, .dictionary ⟨"A", false, some "B", []⟩,
    .dictionary ⟨"C", false, some "B", []⟩, .dictionary ⟨"B", true, none, []⟩]

theorem rejected_iff_inconsistent_circling :
    Inconsistent circling ∧
      (ModelFault.inheritanceCycle .dictionary ["A", "B", "C", "B"]).IsTrueOf circling := by
  have hfault : Model.ofDefinitions circling =
      .error (.inheritanceCycle .dictionary ["A", "B", "C", "B"]) := rfl
  obtain ⟨hiff, htrue⟩ := rejected_iff_inconsistent circling
  exact ⟨hiff.mp ⟨_, hfault⟩, htrue _ hfault⟩

end IdlBindings
