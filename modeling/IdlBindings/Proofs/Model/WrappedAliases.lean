import IdlBindings.Proofs.Model.Resolution
import Mathlib.Logic.Relation

/-!
# Wrappers around aliases

A wrapper takes a type with bindings that does not stand for a wrapper itself. Both parts of this
condition follow aliases to their end, so an alias meets it exactly if its target does. The third
condition does not: the wrappers of lists refuse the type of no value, but they know it by its name
alone, and an alias of it passes.

## Main definitions

* `Model.AliasStep`: from the name of an alias to its target
* `Model.IsElement`: the types that wrappers take, apart from the type of no value
-/
namespace IdlBindings

namespace Model

/-- The first type is the name of an alias, and the second is its target. -/
def AliasStep (m : Model) (x y : IdlType) : Prop :=
  ∃ t ∈ m.typedefs, x = .named t.name ∧ y = t.target

/-- The type has bindings and stands for no wrapper. -/
structure IsElement (m : Model) (x : IdlType) : Prop where
  bound : (m.resolve? x).isSome = true
  plain : ¬m.LeadsToWrapper x

variable {m : Model} {wrapper : String} {x y : IdlType}

/-- What a wrapper takes, told without a word on aliases but for the name of no value. -/
theorem WellNamed.resolve?_generic_isSome_iff (h : m.WellNamed) :
    (m.resolve? (.generic wrapper x)).isSome = true ↔
      ∃ w : Wrapper, w.name = wrapper ∧ m.IsElement x ∧ (x.isUndefined = true → w = .promise) := by
  match x with
  | .named n =>
      rw [resolve?, h.genericKind?_isSome_iff]
      refine exists_congr fun w => and_congr_right fun _ => ?_
      simp only [IdlType.isUndefined, Bool.or_eq_true, beq_iff_eq, ← and_assoc]
      exact and_congr_left fun _ => ⟨fun hn => ⟨hn.1, hn.2⟩, fun hn => ⟨hn.bound, hn.plain⟩⟩
  | .generic inner y =>
      have hleads : m.LeadsToWrapper (.generic inner y) :=
        ⟨[], _, .generic inner y, Nat.succ_pos _⟩
      simp only [resolve?, Option.isSome_none, Bool.false_eq_true, false_iff]
      rintro ⟨w, _, helement, _⟩
      exact helement.plain hleads

/-! ## Along aliases -/

/-- One step: an alias is as good an element as its target. -/
theorem WellNamed.isElement_iff_of_step (h : m.WellNamed) (hstep : m.AliasStep x y) :
    m.IsElement x ↔ m.IsElement y := by
  obtain ⟨t, ht, rfl, rfl⟩ := hstep
  have hbound := h.resolve?_typedef_isSome_iff ht
  have hleads : m.LeadsToWrapper (.named t.name) ↔ m.LeadsToWrapper t.target :=
    chain_iff_of_typedef? (h.typedef?_of_mem ht)
  exact ⟨fun hx => ⟨hbound.mp hx.bound, mt hleads.mpr hx.plain⟩,
    fun hy => ⟨hbound.mpr hy.bound, mt hleads.mp hy.plain⟩⟩

/-- Any number of steps. -/
theorem WellNamed.isElement_iff (h : m.WellNamed) (hsteps : Relation.TransGen m.AliasStep x y) :
    m.IsElement x ↔ m.IsElement y := by
  induction hsteps with
  | single hstep => exact h.isElement_iff_of_step hstep
  | tail _ hstep ih => exact ih.trans (h.isElement_iff_of_step hstep)

/-- The names of no value are those of scalars. -/
theorem isKnown_of_isUndefined (hx : x.isUndefined = true) : ∃ n, x = .named n ∧ m.IsKnown n := by
  match x with
  | .named n =>
      have hscalar : ∃ s ∈ Scalar.all, s.name = n := by
        rw [IdlType.isUndefined, Bool.or_eq_true, beq_iff_eq, beq_iff_eq] at hx
        rcases hx with rfl | rfl <;> decide
      exact ⟨n, rfl, .inl hscalar⟩
  | .generic _ _ => cases hx

theorem WellNamed.isUndefined_of_step (h : m.WellNamed) (hstep : m.AliasStep x y) :
    x.isUndefined = false := by
  obtain ⟨t, ht, rfl, rfl⟩ := hstep
  by_contra hundefined
  rw [Bool.not_eq_false] at hundefined
  obtain ⟨n, heq, hknown⟩ := isKnown_of_isUndefined (m := m) hundefined
  have hnone := h.typedef?_of_isKnown hknown
  rw [← IdlType.named.inj heq, h.typedef?_of_mem ht] at hnone
  cases hnone

theorem WellNamed.isElement_of_isUndefined (h : m.WellNamed) (hx : x.isUndefined = true) :
    m.IsElement x := by
  obtain ⟨n, rfl, hknown⟩ := isKnown_of_isUndefined (m := m) hx
  refine ⟨h.resolve?_of_isKnown hknown, ?_⟩
  rw [LeadsToWrapper, chain_iff_of_typedef?_eq_none (h.typedef?_of_isKnown hknown)]
  exact Nat.lt_irrefl 0

/-- An alias is wrapped exactly if its wrapper is one that takes elements. -/
theorem WellNamed.resolve?_wrapped_alias_iff (h : m.WellNamed)
    (hsteps : Relation.TransGen m.AliasStep x y) :
    (m.resolve? (.generic wrapper x)).isSome = true ↔
      ∃ w : Wrapper, w.name = wrapper ∧ m.IsElement y := by
  have hundefined : x.isUndefined = false := by
    obtain ⟨z, hstep, _⟩ := Relation.TransGen.head'_iff.mp hsteps
    exact h.isUndefined_of_step hstep
  rw [h.resolve?_generic_isSome_iff, h.isElement_iff hsteps]
  simp [hundefined]

end Model

/-- **Wrapping an alias.** However many aliases lead from a name to a type, a wrapper that takes the
type takes the name too. The converse holds with one exception: the wrappers of lists refuse the
type of no value, and take all its aliases. -/
theorem wrapped_alias_iff {m : Model} (h : m.WellNamed) {x y : IdlType}
    (hsteps : Relation.TransGen m.AliasStep x y) (wrapper : String) :
    ((m.resolve? (.generic wrapper y)).isSome = true →
      (m.resolve? (.generic wrapper x)).isSome = true) ∧
    (((m.resolve? (.generic wrapper x)).isSome = true ↔
        (m.resolve? (.generic wrapper y)).isSome = true) ↔
      ¬(y.isUndefined = true ∧ (wrapper = "sequence" ∨ wrapper = "FrozenArray"))) := by
  rw [h.resolve?_wrapped_alias_iff hsteps, h.resolve?_generic_isSome_iff]
  refine ⟨?_, ?_⟩
  · rintro ⟨w, hw, hy, _⟩
    exact ⟨w, hw, hy⟩
  constructor
  · rintro hiff ⟨hundefined, hlist⟩
    have helement := h.isElement_of_isUndefined hundefined
    rcases hlist with rfl | rfl
    · obtain ⟨w, hw, _, hpromise⟩ := hiff.mp ⟨.sequence, rfl, helement⟩
      rw [hpromise hundefined] at hw
      revert hw
      decide
    · obtain ⟨w, hw, _, hpromise⟩ := hiff.mp ⟨.frozenArray, rfl, helement⟩
      rw [hpromise hundefined] at hw
      revert hw
      decide
  · intro hexception
    refine ⟨?_, ?_⟩
    · rintro ⟨w, rfl, hy⟩
      refine ⟨w, rfl, hy, fun hundefined => ?_⟩
      cases w with
      | promise => rfl
      | sequence => exact absurd ⟨hundefined, .inl rfl⟩ hexception
      | frozenArray => exact absurd ⟨hundefined, .inr rfl⟩ hexception
    · rintro ⟨w, hw, hy, _⟩
      exact ⟨w, hw, hy⟩

/-- Aliases of a number and of no value, and an alias of each. -/
def measured : Model where
  interfaces := []
  dictionaries := []
  enums := []
  typedefs := [⟨"Size", .named "unsigned long"⟩, ⟨"Extent", .named "Size"⟩,
    ⟨"Nothing", .named "undefined"⟩, ⟨"Absent", .named "Nothing"⟩]

theorem measured_wellNamed : measured.WellNamed := by
  refine ⟨by decide, fun s hs k => ?_⟩
  cases k <;> revert s <;> decide

theorem measured_steps {x y z : String}
    (hxy : (⟨x, .named y⟩ : Typedef) ∈ measured.typedefs)
    (hyz : (⟨y, .named z⟩ : Typedef) ∈ measured.typedefs) :
    Relation.TransGen measured.AliasStep (.named x) (.named z) :=
  .tail (.single ⟨_, hxy, rfl, rfl⟩) ⟨_, hyz, rfl, rfl⟩

theorem wrapped_alias_iff_extent :
    measured.WellNamed ∧
      Relation.TransGen measured.AliasStep (.named "Extent") (.named "unsigned long") ∧
      ((measured.resolve? (.generic "sequence" (.named "Extent"))).isSome = true ↔
        (measured.resolve? (.generic "sequence" (.named "unsigned long"))).isSome = true) := by
  have hsteps := measured_steps (x := "Extent") (y := "Size") (z := "unsigned long")
    (by decide) (by decide)
  refine ⟨measured_wellNamed, hsteps, ?_⟩
  exact (wrapped_alias_iff measured_wellNamed hsteps "sequence").2.mpr (by decide)

/-- A list of nothing is refused, and taken under either alias. -/
theorem list_of_nothing_taken :
    measured.WellNamed ∧ (measured.resolve? (.named "undefined")).isSome = true ∧
      Relation.TransGen measured.AliasStep (.named "Absent") (.named "undefined") ∧
      ∀ wrapper ∈ ["sequence", "FrozenArray"],
        (measured.resolve? (.generic wrapper (.named "undefined"))).isSome = false ∧
          (measured.resolve? (.generic wrapper (.named "Nothing"))).isSome = true ∧
          (measured.resolve? (.generic wrapper (.named "Absent"))).isSome = true :=
  ⟨measured_wellNamed, by decide, measured_steps (y := "Nothing") (by decide) (by decide),
    by decide⟩

end IdlBindings
