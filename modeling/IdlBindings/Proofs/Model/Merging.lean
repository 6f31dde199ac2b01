import IdlBindings.Proofs.Model.Headers
import IdlBindings.Proofs.Model.Lineage

/-!
# Where the members of an interface come from

A document may declare an interface in many places: a definition, partial definitions, and includes
statements for mixins which are themselves spread over a document. What they amount to is said here
without the steps that put them together: for one name, which definitions speak about it, and in
which order. The model of a document agrees with that, whatever order the definitions stand in, and
adds inherited members only at the end.

## Main definitions

* `Owner`, `declaredFor`: the members declared for an interface or a mixin under its own name
* `declaredMembers`: the members declared for an interface, those of its mixins included
* `declaredParent?`: the parent of an interface
* `declaredOrder`: the names of the interfaces of a document
-/
namespace IdlBindings

/-! ## What a document declares -/

/-- What members can be declared for. Interfaces and mixins do not share their names. -/
inductive Owner where
  | interface (name : String)
  | mixin (name : String)
deriving DecidableEq, Repr

namespace Definition

/-- The members that a definition declares for an owner, if it is marked partial or not as `part`
says. -/
def membersFor (owner : Owner) (part : Bool) : Definition → List Member
  | interface d => if owner = .interface d.name ∧ d.isPartial = part then d.members else []
  | mixin d => if owner = .mixin d.name ∧ d.isPartial = part then d.members else []
  | _ => []

/-- The name of an interface that is marked partial or not as `part` says. -/
def interfaceName? (part : Bool) : Definition → Option String
  | interface d => if d.isPartial = part then some d.name else none
  | _ => none

/-- The mixin that a definition includes into the interface with a name. -/
def mixinFor? (name : String) : Definition → Option String
  | includes d => if d.target = name then some d.mixin else none
  | _ => none

end Definition

/-- The members declared for an owner: those of its definition, then those of its partial ones. -/
def declaredFor (ds : List Definition) (owner : Owner) : List Member :=
  ds.flatMap (Definition.membersFor owner false) ++ ds.flatMap (Definition.membersFor owner true)

/-- The members declared for an interface: its own, then for each includes statement those of the
mixin. -/
def declaredMembers (ds : List Definition) (name : String) : List Member :=
  declaredFor ds (.interface name) ++
    (ds.filterMap (Definition.mixinFor? name)).flatMap fun mixin => declaredFor ds (.mixin mixin)

/-- The parent of an interface. -/
def declaredParent? (ds : List Definition) (name : String) : Option String :=
  effectiveParent? .interface ds name

/-- The names of all interfaces: those with a definition, then those with partial ones only, each
where it first stands. -/
def declaredOrder (ds : List Definition) : List String :=
  let defined := ds.filterMap (Definition.interfaceName? false)
  defined ++ ((ds.filterMap (Definition.interfaceName? true)).filter fun n => n ∉ defined).eraseDups

theorem mem_interfaceNames_iff {ds : List Definition} {part : Bool} {name : String} :
    name ∈ ds.filterMap (Definition.interfaceName? part) ↔
      ∃ d : InterfaceDef, .interface d ∈ ds ∧ d.name = name ∧ d.isPartial = part := by
  rw [List.mem_filterMap]
  constructor
  · rintro ⟨d, hd, h⟩
    cases d with
    | interface d =>
        obtain ⟨hpart, hname⟩ : d.isPartial = part ∧ d.name = name := by
          simpa [Definition.interfaceName?] using h
        exact ⟨d, hd, hname, hpart⟩
    | _ => simp [Definition.interfaceName?] at h
  · rintro ⟨d, hd, rfl, rfl⟩
    exact ⟨_, hd, by simp [Definition.interfaceName?]⟩

theorem mem_declaredOrder_iff {ds : List Definition} {name : String} :
    name ∈ declaredOrder ds ↔ ∃ d : InterfaceDef, .interface d ∈ ds ∧ d.name = name := by
  simp only [declaredOrder, List.mem_append, List.mem_eraseDups, List.mem_filter,
    decide_eq_true_eq]
  constructor
  · rintro (h | ⟨h, _⟩) <;>
      obtain ⟨d, hd, hname, _⟩ := mem_interfaceNames_iff.mp h <;> exact ⟨d, hd, hname⟩
  · rintro ⟨d, hd, hname⟩
    by_cases hdefined : name ∈ ds.filterMap (Definition.interfaceName? false)
    · exact .inl hdefined
    · refine .inr ⟨mem_interfaceNames_iff.mpr ⟨d, hd, hname, ?_⟩, hdefined⟩
      cases hp : d.isPartial with
      | true => rfl
      | false => exact absurd (mem_interfaceNames_iff.mpr ⟨d, hd, hname, hp⟩) hdefined

/-! ## The classes as bodies -/

section Classes

variable {ds : List Definition} {part : Bool} {n : String}

/-- The members gathered under a name can be taken from the definitions one by one. -/
theorem gathered_filterMap {μ : Type} {body? : Definition → Option (Body μ)}
    {members : Definition → List μ}
    (h : ∀ d, members d = (body? d).elim [] fun b => if b.name = n then b.members else []) :
    Body.gathered (ds.filterMap body?) n = ds.flatMap members := by
  induction ds with
  | nil => rfl
  | cons d ds ih =>
      rw [List.flatMap_cons, h d, ← ih]
      cases hd : body? d with
      | none => rw [List.filterMap_cons_none hd]; rfl
      | some b => rw [List.filterMap_cons_some hd]; rfl

theorem gathered_interfaceBody? :
    Body.gathered (ds.filterMap (Definition.interfaceBody? part)) n =
      ds.flatMap (Definition.membersFor (.interface n) part) := by
  refine gathered_filterMap fun d => ?_
  cases d with
  | interface d => by_cases h : d.isPartial = part <;>
      simp [Definition.interfaceBody?, Definition.membersFor, h, eq_comm]
  | _ => rfl

theorem gathered_mixinBody? :
    Body.gathered (ds.filterMap (Definition.mixinBody? part)) n =
      ds.flatMap (Definition.membersFor (.mixin n) part) := by
  refine gathered_filterMap fun d => ?_
  cases d with
  | mixin d => by_cases h : d.isPartial = part <;>
      simp [Definition.mixinBody?, Definition.membersFor, h, eq_comm]
  | _ => rfl

theorem names_interfaceBody? :
    Body.names (ds.filterMap (Definition.interfaceBody? part)) =
      ds.filterMap (Definition.interfaceName? part) := by
  rw [Body.names, List.map_filterMap]
  refine List.filterMap_congr fun d _ => ?_
  cases d with
  | interface d => by_cases h : d.isPartial = part <;>
      simp [Definition.interfaceBody?, Definition.interfaceName?, h]
  | _ => rfl

/-- A class of definitions whose names count as declared has distinct names in a checked
document. -/
theorem nodup_names_of_check {μ : Type} {body? : Definition → Option (Body μ)}
    (hbody : ∀ d b, body? d = some b → d.declared? = some b.name)
    (h : Definition.check [] ds = .ok ()) : (Body.names (ds.filterMap body?)).Nodup := by
  rw [Body.names, List.map_filterMap]
  refine Definition.nodup_filterMap_of_check (fun d n hn => ?_) h
  obtain ⟨b, hb, rfl⟩ := Option.map_eq_some_iff.mp hn
  exact hbody d b hb

theorem declared?_of_interfaceBody? {d : Definition} {b : Body Member}
    (h : d.interfaceBody? false = some b) : d.declared? = some b.name := by
  cases d with
  | interface d =>
      cases hp : d.isPartial with
      | true => simp [Definition.interfaceBody?, hp] at h
      | false =>
          obtain rfl : _ = b := by simpa [Definition.interfaceBody?, hp] using h
          simp [Definition.declared?, hp]
  | _ => simp [Definition.interfaceBody?] at h

theorem declared?_of_mixinBody? {d : Definition} {b : Body Member}
    (h : d.mixinBody? false = some b) : d.declared? = some b.name := by
  cases d with
  | mixin d =>
      cases hp : d.isPartial with
      | true => simp [Definition.mixinBody?, hp] at h
      | false =>
          obtain rfl : _ = b := by simpa [Definition.mixinBody?, hp] using h
          simp [Definition.declared?, hp]
  | _ => simp [Definition.mixinBody?] at h

end Classes

/-! ## Includes statements -/

section Includes

variable {mixins bodies bodies' : List (Body Member)} {n : String}

/-- An includes statement needs both sides, and appends the members of one to the other. -/
theorem applyIncludes_eq_ok_iff {d : IncludesDef} :
    applyIncludes mixins bodies d = .ok bodies' ↔
      d.mixin ∈ Body.names mixins ∧ d.target ∈ Body.names bodies ∧
        Body.extend bodies d.target (Body.membersOf mixins d.mixin) = bodies' := by
  simp only [Body.mem_names_iff, ← Option.isSome_iff_exists]
  rw [applyIncludes]
  cases hm : Body.find? mixins d.mixin with
  | none => simp
  | some mixin =>
      by_cases ht : (Body.find? bodies d.target).isSome = true
      · simp [ht, Body.membersOf, hm]
      · simp [ht]

/-- All includes statements together: names and parents stay, and each interface gets the members of
the mixins that are included into it, in the order of the statements. -/
theorem foldlM_applyIncludes {includes : List IncludesDef}
    (h : includes.foldlM (applyIncludes mixins) bodies = .ok bodies') :
    Body.names bodies' = Body.names bodies ∧
      (∀ n, Body.parentOf bodies' n = Body.parentOf bodies n) ∧
      ∀ n, Body.membersOf bodies' n = Body.membersOf bodies n ++
        includes.flatMap fun d => if d.target = n then Body.membersOf mixins d.mixin else [] := by
  induction includes generalizing bodies with
  | nil =>
      rw [List.foldlM_nil, pure_eq_ok_iff] at h
      subst h
      simp
  | cons d includes ih =>
      rw [List.foldlM_cons, bind_eq_ok_iff] at h
      obtain ⟨next, hstep, hrest⟩ := h
      obtain ⟨_, htarget, rfl⟩ := applyIncludes_eq_ok_iff.mp hstep
      obtain ⟨hnames, hparents, hmembers⟩ := ih hrest
      refine ⟨?_, ?_, ?_⟩
      · rw [hnames, Body.names_extend]
      · intro n
        rw [hparents, Body.parentOf_extend]
      · intro n
        rw [hmembers, Body.membersOf_extend htarget, List.flatMap_cons, List.append_assoc]

theorem flatMap_includes {ds : List Definition} (members : String → List Member) :
    ((ds.filterMap Definition.includes?).flatMap fun d =>
        if d.target = n then members d.mixin else []) =
      (ds.filterMap (Definition.mixinFor? n)).flatMap members := by
  induction ds with
  | nil => rfl
  | cons d ds ih =>
      cases d with
      | includes d =>
          by_cases h : d.target = n <;>
            simp [Definition.includes?, Definition.mixinFor?, h, ih]
      | _ => exact ih

end Includes

/-! ## Interfaces before inheritance -/

/-- The merged interfaces are what the document declares: their names in order, and for each name
the parent and the members. -/
theorem mergedInterfaces_spec {ds : List Definition} {bodies : List (Body Member)}
    (hcheck : Definition.check [] ds = .ok ()) (h : mergedInterfaces ds = .ok bodies) :
    Body.names bodies = declaredOrder ds ∧ (Body.names bodies).Nodup ∧
      (∀ n, Body.parentOf bodies n = declaredParent? ds n) ∧
      ∀ n, Body.membersOf bodies n = declaredMembers ds n := by
  have hinterfaces := nodup_names_of_check (fun _ _ => declared?_of_interfaceBody?) hcheck
  have hmixins := nodup_names_of_check (fun _ _ => declared?_of_mixinBody?) hcheck
  obtain ⟨hnames, hparents, hmembers⟩ := foldlM_applyIncludes h
  have hmixin : ∀ n, Body.membersOf (Body.withPartials (ds.filterMap (Definition.mixinBody? false))
      (ds.filterMap (Definition.mixinBody? true))) n = declaredFor ds (.mixin n) := by
    intro n
    rw [Body.membersOf_withPartials, Body.membersOf_eq_gathered hmixins, gathered_mixinBody?,
      gathered_mixinBody?, declaredFor]
  refine ⟨?_, ?_, ?_, ?_⟩
  · rw [hnames, Body.names_withPartials, names_interfaceBody?, names_interfaceBody?, declaredOrder]
  · rw [hnames]
    exact Body.nodup_names_withPartials hinterfaces
  · intro n
    rw [hparents, represents_mergedBases.parentOf_eq, declaredParent?]
  · intro n
    rw [hmembers, Body.membersOf_withPartials, Body.membersOf_eq_gathered hinterfaces,
      gathered_interfaceBody?, gathered_interfaceBody?, declaredMembers, declaredFor,
      ← flatMap_includes fun mixin => declaredFor ds (.mixin mixin)]
    simp only [hmixin]

/-! ## Interfaces of the model -/

section Interfaces

variable {ds : List Definition} {bodies : List (Body Member)} {m : Model}

theorem ModelOf.names_interfaces (h : ModelOf ds bodies m) :
    m.interfaces.map Interface.name = Body.names bodies := by
  rw [Body.names, eq_comm, ← List.forall₂_eq_eq_eq, List.forall₂_map_left_iff,
    List.forall₂_map_right_iff]
  refine h.interfaces.imp ?_
  rintro b i ⟨members, _, rfl⟩
  rfl

/-- Every interface of the document is in the model, with what its members come to after
inheritance. -/
theorem ModelOf.exists_interface (h : ModelOf ds bodies m) {n : String}
    (hn : n ∈ Body.names bodies) :
    ∃ b members, Body.find? bodies n = some b ∧ Interface.mk n members ∈ m.interfaces ∧
      Body.flatten .interface Member.addsTo bodies b = .ok members := by
  obtain ⟨b, hb⟩ := Body.mem_names_iff.mp hn
  obtain ⟨_, hi, members, hflat, rfl⟩ :=
    exists_right_of_forall₂ h.interfaces (Body.mem_of_find? hb)
  rw [Body.name_of_find? hb] at hi
  exact ⟨b, members, hb, hi, hflat⟩

/-- Every interface of the model stands for the body with its name. -/
theorem ModelOf.exists_body (h : ModelOf ds bodies m) {i : Interface} (hi : i ∈ m.interfaces) :
    ∃ b, Body.find? bodies i.name = some b ∧
      Body.flatten .interface Member.addsTo bodies b = .ok i.members := by
  obtain ⟨_, hnodup, _⟩ := mergedInterfaces_spec h.checked h.merged
  obtain ⟨b, hb, members, hflat, rfl⟩ := exists_right_of_forall₂ h.interfaces.flip hi
  exact ⟨b, Body.find?_of_mem hnodup hb, hflat⟩

/-- **Members come from where the document declares them.** The interfaces of the model are the
declared ones in their order, each once. The members of an interface start with the declared ones,
and no constructor follows. -/
theorem interfaces_as_declared (h : Model.ofDefinitions ds = .ok m) :
    m.interfaces.map Interface.name = declaredOrder ds ∧
      (∀ i ∈ m.interfaces, ∃ d : InterfaceDef, .interface d ∈ ds ∧ d.name = i.name) ∧
      ∀ name, (∃ d : InterfaceDef, .interface d ∈ ds ∧ d.name = name) →
        (m.interfaces.map Interface.name).count name = 1 ∧
          ∃ inherited, (∀ ctor, Member.constructor ctor ∉ inherited) ∧
            Interface.mk name (declaredMembers ds name ++ inherited) ∈ m.interfaces := by
  obtain ⟨bodies, hm⟩ := ofDefinitions_eq_ok_iff.mp h
  obtain ⟨hnames, hnodup, _, hmembers⟩ := mergedInterfaces_spec hm.checked hm.merged
  have horder : m.interfaces.map Interface.name = declaredOrder ds :=
    hm.names_interfaces.trans hnames
  refine ⟨horder, ?_, ?_⟩
  · intro i hi
    rw [← mem_declaredOrder_iff, ← horder]
    exact List.mem_map_of_mem hi
  · intro name hname
    rw [← mem_declaredOrder_iff, ← hnames] at hname
    refine ⟨?_, ?_⟩
    · rw [hm.names_interfaces]
      exact List.count_eq_one_of_mem hnodup hname
    · obtain ⟨b, members, hb, hi, hflat⟩ := hm.exists_interface hname
      obtain ⟨above, _, rfl⟩ := Body.flatten_eq_ok_iff.mp hflat
      have hown : b.members = declaredMembers ds name := by
        rw [← hmembers, Body.membersOf, hb]
        rfl
      rw [Body.inherit_eq Member.addsTo_keyed, hown] at hi
      refine ⟨_, ?_, hi⟩
      intro ctor hctor
      have hoffered := (Body.firstOfEach_sublist _ _).subset hctor
      simpa [Member.key?] using Body.isSome_key_of_mem_offered hoffered

/-- An interface whose definition stands last, after a partial one, with a mixin that is included
before it is defined. A second interface has only a partial definition and inherits from it. -/
def scattered : List Definition :=
  [.includes ⟨"A", "M"⟩,
    .mixin ⟨"M", true, [.operation ⟨"fourth", [], none, false, []⟩]⟩,
    .interface ⟨"B", true, some "A", [.operation ⟨"own", [], none, false, []⟩], []⟩,
    .interface ⟨"A", true, none, [.operation ⟨"second", [], none, false, []⟩], []⟩,
    .mixin ⟨"M", false, [.operation ⟨"third", [], none, false, []⟩]⟩,
    .interface ⟨"A", false, none,
      [.constructor ⟨[], []⟩, .operation ⟨"first", [], none, false, []⟩], []⟩]

theorem interfaces_as_declared_scattered :
    ∃ m, Model.ofDefinitions scattered = .ok m ∧
      m.interfaces.map Interface.name = ["A", "B"] ∧
      ∃ inherited, (∀ ctor, Member.constructor ctor ∉ inherited) ∧
        Interface.mk "A" ([.constructor ⟨[], []⟩, .operation ⟨"first", [], none, false, []⟩,
          .operation ⟨"second", [], none, false, []⟩, .operation ⟨"third", [], none, false, []⟩,
          .operation ⟨"fourth", [], none, false, []⟩] ++ inherited) ∈ m.interfaces := by
  obtain ⟨m, hm⟩ : ∃ m, Model.ofDefinitions scattered = .ok m := ⟨_, rfl⟩
  obtain ⟨horder, _, hmembers⟩ := interfaces_as_declared hm
  obtain ⟨_, inherited, hctor, hmem⟩ := hmembers "A" (mem_declaredOrder_iff.mp (by decide))
  exact ⟨m, hm, horder.trans (by decide), inherited, hctor, hmem⟩

end Interfaces

end IdlBindings
