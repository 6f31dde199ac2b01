import IdlBindings.Proofs.Signature.Acceptance
import Mathlib.Order.Bounds.Basic

/-!
# Overloads that no call can reach

`Candidate.subsumes` looks at finitely many lengths and one position at a time, yet it decides an
inclusion between two infinite sets of calls. It errs on neither side: a longer call only adds
`undefined`, which any candidate that may end earlier takes, and a kind that fails at one position
stands in a call that fails. So the shadow of a candidate is the first one before it that leaves it
no call, and a candidate with a shadow is never picked. None of this needs `required` to stay below
the number of positions.

## Main definitions

* `Candidate.Covers`: one candidate accepts every call that another accepts
-/
namespace IdlBindings

namespace Candidate

/-- Every call that `other` accepts, of whatever length, is accepted by `c`. -/
def Covers (c other : Candidate) : Prop :=
  ∀ call, other.accepts call = true → c.accepts call = true

variable {c other : Candidate}

/-- What the check of lengths and positions says. -/
theorem subsumes_iff :
    c.subsumes other = true ↔
      ∀ n ≤ other.expected.length, other.acceptsCount n = true →
        c.acceptsCount n = true ∧
          ∀ i < n, ∀ v, other.acceptsAt i v = true → c.acceptsAt i v = true := by
  simp only [subsumes, List.all_eq_true, List.mem_range, Nat.lt_succ_iff, Bool.or_eq_true,
    Bool.and_eq_true, Bool.not_eq_true', ValueCategory.mem_all, true_implies,
    ← Bool.not_eq_true, ← Decidable.imp_iff_not_or]

/-- Enough is checked: a call of any length that `other` accepts is accepted. -/
theorem covers_of_subsumes (h : c.subsumes other = true) : c.Covers other := by
  intro call hcall
  obtain ⟨hcount, hargs⟩ := accepts_iff.mp hcall
  rw [subsumes_iff] at h
  rw [accepts_iff]
  -- Only the arguments at positions of `other` are told apart; the rest of the call is `undefined`.
  let n := min call.length other.expected.length
  have hn : other.acceptsCount n = true := by
    rcases Nat.le_total call.length other.expected.length with hle | hle
    · rwa [show n = call.length from Nat.min_eq_left hle]
    · rw [show n = other.expected.length from Nat.min_eq_right hle]
      exact acceptsCount_length other
  obtain ⟨hc, hat⟩ := h n (Nat.min_le_right _ _) hn
  refine ⟨acceptsCount_mono hc (Nat.min_le_left _ _), ?_⟩
  intro i v hv
  have hi : i < call.length := (List.getElem?_eq_some_iff.mp hv).1
  by_cases hin : i < n
  · exact hat i hin v (hargs i v hv)
  · obtain rfl := eq_undefined_of_acceptsAt (hargs i v hv) (by omega)
    exact acceptsAt_undefined hc (by omega)

/-- Not too much is checked: what fails at a length or at a position fails on a call. -/
theorem subsumes_of_covers (h : c.Covers other) : c.subsumes other = true := by
  rw [subsumes_iff]
  intro n _ hn
  have hsample := accepts_sampleCall hn
  refine ⟨?_, ?_⟩
  · simpa using (accepts_iff.mp (h _ hsample)).1
  · intro i hi v hv
    have hset := h _ (accepts_set hsample hv)
    exact (accepts_iff.mp hset).2 i v (by simp [hi])

theorem subsumes_iff_covers : c.subsumes other = true ↔ c.Covers other :=
  ⟨covers_of_subsumes, subsumes_of_covers⟩

end Candidate

/-! ## Shadows -/

variable {candidates : List Candidate}

/-- The shadow of a candidate is the first one before it that covers it. -/
theorem shadowedBy?_eq_some_iff {i j : Nat} {target : Candidate}
    (hi : candidates[i]? = some target) :
    shadowedBy? candidates i = some j ↔
      IsLeast {k | k < i ∧ ∃ c, candidates[k]? = some c ∧ c.Covers target} j := by
  have hmem : ∀ k, k ∈ {k | k < i ∧ ∃ c, candidates[k]? = some c ∧ c.Covers target} ↔
      ∃ c, (candidates.take i)[k]? = some c ∧ c.subsumes target = true := by
    intro k
    rw [Set.mem_ofPred_eq, List.getElem?_take]
    split
    · simp_all [Candidate.subsumes_iff_covers]
    · simp_all
  have hidx : shadowedBy? candidates i =
      (candidates.take i).findIdx? fun c => c.subsumes target := by
    simp [shadowedBy?, hi]
  rw [hidx, List.findIdx?_eq_some_iff_getElem, IsLeast, hmem]
  constructor
  · rintro ⟨hj, hsub, hfirst⟩
    refine ⟨⟨_, List.getElem?_eq_getElem hj, hsub⟩, ?_⟩
    intro k hk
    obtain ⟨c, hc, hcov⟩ := (hmem k).mp hk
    by_contra hlt
    obtain ⟨_, rfl⟩ := List.getElem?_eq_some_iff.mp hc
    exact hfirst k (Nat.lt_of_not_le hlt) hcov
  · rintro ⟨⟨c, hc, hsub⟩, hleast⟩
    obtain ⟨hj, rfl⟩ := List.getElem?_eq_some_iff.mp hc
    refine ⟨hj, hsub, ?_⟩
    intro k hk hcov
    have hkmem := (hmem k).mpr ⟨_, List.getElem?_eq_getElem (Nat.lt_trans hk hj), hcov⟩
    exact absurd (hleast hkmem) (Nat.not_le_of_lt hk)

/-- No call goes to a candidate that one before it covers. -/
theorem pick?_ne_of_covers {i j : Nat} {c target : Candidate} (hj : candidates[j]? = some c)
    (hi : candidates[i]? = some target) (hji : j < i) (hcov : c.Covers target)
    (call : List ValueCategory) : pick? candidates call ≠ some i := by
  intro hpick
  obtain ⟨hlt, hacc, hfirst⟩ := List.findIdx?_eq_some_iff_getElem.mp hpick
  obtain ⟨_, rfl⟩ := List.getElem?_eq_some_iff.mp hi
  obtain ⟨_, rfl⟩ := List.getElem?_eq_some_iff.mp hj
  exact hfirst j hji (hcov call hacc)

/-- **Shadowing is exact.** Subsumption is inclusion of the accepted calls, the shadow of a
candidate is the least position before it whose candidate accepts all its calls, and a candidate
with a shadow is picked by no call. -/
theorem shadowing_exact (candidates : List Candidate) (i : Fin candidates.length) :
    (∀ a b : Candidate, a.subsumes b = true ↔
        ∀ call, b.accepts call = true → a.accepts call = true) ∧
      (∀ j, shadowedBy? candidates i = some j ↔
        IsLeast {k | k < i.val ∧ ∃ c, candidates[k]? = some c ∧
          ∀ call, candidates[i].accepts call = true → c.accepts call = true} j) ∧
      ((shadowedBy? candidates i).isSome = true → ∀ call, pick? candidates call ≠ some i.val) := by
  have hi : candidates[i.val]? = some candidates[i] := List.getElem?_eq_getElem i.isLt
  refine ⟨fun a b => Candidate.subsumes_iff_covers, fun j => shadowedBy?_eq_some_iff hi, ?_⟩
  intro hsome call
  obtain ⟨j, hj⟩ := Option.isSome_iff_exists.mp hsome
  obtain ⟨⟨hji, c, hc, hcov⟩, _⟩ := (shadowedBy?_eq_some_iff hi).mp hj
  exact pick?_ne_of_covers hc hi hji hcov call

/-- An overload with a text after one that takes anything has a shadow, so no call goes to it. -/
theorem shadowing_exact_any_first :
    shadowedBy? [⟨[none], 1⟩, ⟨[some .string], 1⟩] 1 = some 0 ∧
      ∀ call, pick? [⟨[none], 1⟩, ⟨[some .string], 1⟩] call ≠ some 1 := by
  have hshadow : shadowedBy? [⟨[none], 1⟩, ⟨[some .string], 1⟩] 1 = some 0 := by decide
  refine ⟨hshadow, ?_⟩
  exact (shadowing_exact [⟨[none], 1⟩, ⟨[some .string], 1⟩] 1).2.2 (by decide)

end IdlBindings
