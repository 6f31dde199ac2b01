import IdlBindings.Proofs.Model.Body

/-!
# What a document says about ancestry

Interfaces and dictionaries name a parent in the same way, and both may be spread over a definition
and partial ones. Of each definition only a header counts here. The definition that is not partial
tells the parent, wherever it stands, and the bodies that are made from a document agree with that.

## Main definitions

* `Header`, `headers`: what a document says about the ancestry of interfaces or dictionaries
* `effectiveParent?`: the parent that counts
* `Represents`: bodies that stand for the interfaces or the dictionaries of a document
-/
namespace IdlBindings

/-- The part of a definition that its place among ancestors depends on. -/
structure Header where
  name : String
  isPartial : Bool
  parent : Option String
deriving DecidableEq, Repr

/-- The header of an interface or a dictionary, as `kind` says. -/
def Definition.header? : InheritingKind → Definition → Option Header
  | .interface, .interface d => some ⟨d.name, d.isPartial, d.parent⟩
  | .dictionary, .dictionary d => some ⟨d.name, d.isPartial, d.parent⟩
  | _, _ => none

/-- The headers of all interfaces or all dictionaries of a document, in order. -/
def headers (kind : InheritingKind) (ds : List Definition) : List Header :=
  ds.filterMap (Definition.header? kind)

/-- The interface or dictionary is declared, be it by partial definitions only. -/
def IsDeclared (kind : InheritingKind) (ds : List Definition) (n : String) : Prop :=
  n ∈ (headers kind ds).map Header.name

/-- The parent of an interface or dictionary. The definition that is not partial tells, or the first
partial one if there is no other. -/
def effectiveParent? (kind : InheritingKind) (ds : List Definition) (n : String) : Option String :=
  let own := (headers kind ds).filter fun h => h.name = n
  ((own.find? fun h => !h.isPartial).or own.head?).bind Header.parent

variable {ds : List Definition} {kind : InheritingKind} {n : String}

theorem isDeclared_iff : IsDeclared kind ds n ↔ ∃ h ∈ headers kind ds, h.name = n :=
  List.mem_map

theorem isDeclared_of_effectiveParent? {parent : String}
    (h : effectiveParent? kind ds n = some parent) : IsDeclared kind ds n := by
  rw [effectiveParent?, Option.bind_eq_some_iff] at h
  obtain ⟨header, hsome, _⟩ := h
  have hmem : header ∈ (headers kind ds).filter fun h => h.name = n := by
    rcases Option.or_eq_some_iff.mp hsome with h | ⟨_, h⟩
    · exact List.mem_of_find?_eq_some h
    · exact List.mem_of_head? h
  rw [List.mem_filter, decide_eq_true_iff] at hmem
  exact isDeclared_iff.mpr ⟨header, hmem.1, hmem.2⟩

/-! ## Bodies and headers -/

section Bodies

variable {μ : Type} {body? : Bool → Definition → Option (Body μ)} {bodies : List (Body μ)}

/-- What a body says about ancestry, where `part` tells if it stands for a partial definition. -/
def Body.header (part : Bool) (b : Body μ) : Header := ⟨b.name, part, b.parent⟩

/-- The bodies are those of a kind in a document, as far as ancestry goes. -/
structure Represents (kind : InheritingKind) (ds : List Definition) (bodies : List (Body μ)) :
    Prop where
  mem_names : ∀ n, n ∈ Body.names bodies ↔ IsDeclared kind ds n
  parentOf_eq : Body.parentOf bodies = effectiveParent? kind ds

/-- The bodies of a class of definitions have the headers of that class. -/
theorem map_header_filterMap
    (hbody : ∀ part d, (body? part d).map (Body.header part) =
      (d.header? kind).filter fun h => h.isPartial = part) (part : Bool) :
    (ds.filterMap (body? part)).map (Body.header part) =
      (headers kind ds).filter fun h => h.isPartial = part := by
  rw [List.map_filterMap, headers, List.filter_filterMap]
  exact List.filterMap_congr fun d _ => hbody part d

/-- The definition that is not partial comes before partial ones, whatever their order. -/
theorem effectiveParent?_eq :
    effectiveParent? kind ds n =
      ((((headers kind ds).filter fun h => h.isPartial = false).find? fun h => h.name = n).or
        (((headers kind ds).filter fun h => h.isPartial = true).find? fun h => h.name = n)).bind
          Header.parent := by
  have hcomm : ∀ part,
      (((headers kind ds).filter fun h => h.isPartial = part).find? fun h => h.name = n) =
        (((headers kind ds).filter fun h => h.name = n).filter
          fun h => h.isPartial = part).head? := by
    intro part
    rw [← List.head?_filter, List.filter_comm]
  rw [hcomm, hcomm, effectiveParent?]
  generalize (headers kind ds).filter (fun h => h.name = n) = own
  have hfind : own.find? (fun h => !h.isPartial) =
      (own.filter fun h => h.isPartial = false).head? := by
    rw [List.head?_filter]
    simp
  rw [hfind]
  cases hbases : own.filter fun h => h.isPartial = false with
  | cons h hs => simp
  | nil =>
      -- All are partial, so the first partial one is the first of all.
      have hall : own.filter (fun h => h.isPartial = true) = own := by
        rw [List.filter_eq_nil_iff] at hbases
        rw [List.filter_eq_self]
        intro h hmem
        simpa using hbases h hmem
      rw [hall]

theorem represents_withPartials
    (hbody : ∀ part d, (body? part d).map (Body.header part) =
      (d.header? kind).filter fun h => h.isPartial = part) :
    Represents kind ds
      (Body.withPartials (ds.filterMap (body? false)) (ds.filterMap (body? true))) where
  mem_names n := by
    have hnames : ∀ part, n ∈ Body.names (ds.filterMap (body? part)) ↔
        ∃ h ∈ headers kind ds, h.isPartial = part ∧ h.name = n := by
      intro part
      have hmap : Body.names (ds.filterMap (body? part)) =
          ((ds.filterMap (body? part)).map (Body.header part)).map Header.name := by
        rw [List.map_map]
        rfl
      rw [hmap, map_header_filterMap hbody]
      simp [and_assoc]
    rw [Body.mem_names_withPartials, hnames, hnames, isDeclared_iff]
    constructor
    · rintro (⟨h, hh, _, hn⟩ | ⟨h, hh, _, hn⟩) <;> exact ⟨h, hh, hn⟩
    · rintro ⟨h, hh, hn⟩
      cases hp : h.isPartial with
      | true => exact .inr ⟨h, hh, hp, hn⟩
      | false => exact .inl ⟨h, hh, hp, hn⟩
  parentOf_eq := by
    funext n
    have hfind : ∀ part, (Body.find? (ds.filterMap (body? part)) n).map (Body.header part) =
        ((headers kind ds).filter fun h => h.isPartial = part).find? fun h => h.name = n := by
      intro part
      rw [← map_header_filterMap hbody, List.find?_map]
      rfl
    rw [Body.parentOf_withPartials, Body.parentOf, Body.find?_append, effectiveParent?_eq,
      ← hfind, ← hfind]
    cases Body.find? (ds.filterMap (body? false)) n with
    | some b => rfl
    | none => cases Body.find? (ds.filterMap (body? true)) n <;> rfl

end Bodies

/-! ## The two kinds -/

theorem represents_mergedBases : Represents .interface ds
    (Body.withPartials (ds.filterMap (Definition.interfaceBody? false))
      (ds.filterMap (Definition.interfaceBody? true))) := by
  refine represents_withPartials fun part d => ?_
  cases d with
  | interface d => by_cases hp : d.isPartial = part <;>
      simp [Definition.interfaceBody?, Definition.header?, Body.header, Option.filter, hp]
  | _ => rfl

theorem represents_dictionaries : Represents .dictionary ds (mergedDictionaries ds) := by
  refine represents_withPartials fun part d => ?_
  cases d with
  | dictionary d => by_cases hp : d.isPartial = part <;>
      simp [Definition.dictionaryBody?, Definition.header?, Body.header, Option.filter, hp]
  | _ => rfl

end IdlBindings
