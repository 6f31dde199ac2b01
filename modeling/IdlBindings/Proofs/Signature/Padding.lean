import IdlBindings.Proofs.Signature.Acceptance
import Mathlib.Data.Nat.SuccPred

/-!
# Calls that go on with `undefined`

A call may end early or spell out the arguments it leaves out as `undefined`. The two take different
ways through `Candidate.accepts`: an argument that is left out is looked at together with all others
that are, while one that is spelled out has to be taken at its position. They agree unless the last
required position of an expected kind expects `undefined` itself. There a call that is too short
becomes long enough by what it goes on with.

## Main definitions

* `Candidate.fixedRequired`: the required positions of an expected kind
* `Candidate.IgnoresPadding`: the last of them does not expect `undefined`
-/
namespace IdlBindings

namespace Candidate

/-- The required positions that expect one kind. -/
def fixedRequired (c : Candidate) : Set Nat :=
  {i | i < c.required ∧ ∃ e, c.expected[i]? = some (some e)}

/-- The last required position that expects one kind, if there is one, does not expect
`undefined`. -/
def IgnoresPadding (c : Candidate) : Prop :=
  ∀ i, IsGreatest c.fixedRequired i → c.expected[i]? ≠ some (some .undefined)

variable {c : Candidate} {call : List ValueCategory} {i k : Nat}

theorem acceptsCount_iff_fixedRequired :
    c.acceptsCount i = true ↔ ∀ p ∈ c.fixedRequired, p < i := by
  rw [acceptsCount_iff]
  constructor
  · rintro h p ⟨hreq, e, he⟩
    by_contra hlt
    exact h p e (Nat.le_of_not_lt hlt) hreq he
  · intro h p e hip hreq he
    exact absurd (h p ⟨hreq, e, he⟩) (Nat.not_lt.mpr hip)

/-- Where the candidate has fixed positions, there is a last one. -/
theorem exists_isGreatest_fixedRequired (h : c.fixedRequired.Nonempty) :
    ∃ p, IsGreatest c.fixedRequired p :=
  BddAbove.exists_isGreatest_of_nonempty ⟨c.required, fun _ hp => Nat.le_of_lt hp.1⟩ h

/-- A required position takes `undefined` only if it expects it or takes anything. -/
theorem acceptsAt_undefined_of_mem_fixedRequired (hi : i ∈ c.fixedRequired) :
    c.acceptsAt i .undefined = true ↔ c.expected[i]? = some (some .undefined) := by
  obtain ⟨hreq, e, he⟩ := hi
  simp [acceptsAt, he, Nat.not_le.mpr hreq]

/-! ## Padding a call -/

theorem getElem?_padded_of_le (hi : call.length ≤ i) (hk : i < call.length + k) :
    (call ++ List.replicate k ValueCategory.undefined)[i]? = some .undefined := by
  rw [List.getElem?_append_right hi, List.getElem?_replicate, if_pos (by omega)]

/-- A call that is accepted may go on with `undefined`. -/
theorem accepts_padded (h : c.accepts call = true) (k : Nat) :
    c.accepts (call ++ List.replicate k .undefined) = true := by
  obtain ⟨hcount, hargs⟩ := accepts_iff.mp h
  rw [accepts_iff, List.length_append]
  refine ⟨acceptsCount_mono hcount (Nat.le_add_right _ _), ?_⟩
  intro i v hv
  rcases Nat.lt_or_ge i call.length with hi | hi
  · rw [List.getElem?_append_left hi] at hv
    exact hargs i v hv
  · have hk : i < call.length + k := by simpa using (List.getElem?_eq_some_iff.mp hv).1
    rw [getElem?_padded_of_le hi hk] at hv
    cases hv
    exact acceptsAt_undefined hcount hi

/-- Where padding is ignored, it makes no call long enough. -/
theorem accepts_of_accepts_padded (hpad : c.IgnoresPadding)
    (h : c.accepts (call ++ List.replicate k .undefined) = true) : c.accepts call = true := by
  obtain ⟨hcount, hargs⟩ := accepts_iff.mp h
  rw [accepts_iff]
  refine ⟨?_, ?_⟩
  · rw [acceptsCount_iff_fixedRequired] at hcount ⊢
    intro q hq
    obtain ⟨p, hp⟩ := exists_isGreatest_fixedRequired ⟨q, hq⟩
    by_contra hlt
    -- The last fixed position is left out too, so it is in the padding and does not take it.
    have hqp : q ≤ p := hp.2 hq
    have hpk : p < call.length + k := by simpa using hcount p hp.1
    have htaken := hargs p .undefined (getElem?_padded_of_le (by omega) hpk)
    exact hpad p hp ((acceptsAt_undefined_of_mem_fixedRequired hp.1).mp htaken)
  · intro i v hv
    have hi : i < call.length := (List.getElem?_eq_some_iff.mp hv).1
    exact hargs i v (by rwa [List.getElem?_append_left hi])

/-- If the last fixed position expects `undefined`, a call that ends before it is too short, and the
same call with one `undefined` more is not. -/
theorem accepts_padded_sampleCall (hp : IsGreatest c.fixedRequired i)
    (hundef : c.expected[i]? = some (some .undefined)) :
    c.accepts (c.sampleCall i) = false ∧
      c.accepts (c.sampleCall i ++ List.replicate 1 .undefined) = true := by
  constructor
  · rw [Bool.eq_false_iff]
    intro h
    have hcount := (accepts_iff.mp h).1
    rw [length_sampleCall, acceptsCount_iff_fixedRequired] at hcount
    exact Nat.lt_irrefl i (hcount i hp.1)
  · have hsample : c.sampleCall i ++ List.replicate 1 .undefined = c.sampleCall (i + 1) := by
      simp [sampleCall, List.range_succ, sample, hundef]
    rw [hsample]
    apply accepts_sampleCall
    rw [acceptsCount_iff_fixedRequired]
    intro q hq
    exact Nat.lt_succ_of_le (hp.2 hq)

theorem accepts_padded_eq_iff :
    (∀ call k, c.accepts (call ++ List.replicate k .undefined) = c.accepts call) ↔
      c.IgnoresPadding := by
  constructor
  · intro h p hp hundef
    obtain ⟨hshort, hlong⟩ := accepts_padded_sampleCall hp hundef
    rw [h, hshort] at hlong
    cases hlong
  · intro hpad call k
    rw [Bool.eq_iff_iff]
    exact ⟨accepts_of_accepts_padded hpad, fun h => accepts_padded h k⟩

end Candidate

/-- Calls that every candidate takes for the same go to the same one. -/
theorem pick?_congr {candidates : List Candidate} {call call' : List ValueCategory}
    (h : ∀ c ∈ candidates, c.accepts call = c.accepts call') :
    pick? candidates call = pick? candidates call' := by
  unfold pick?
  induction candidates with
  | nil => rfl
  | cons c candidates ih =>
      rw [List.forall_mem_cons] at h
      rw [List.findIdx?_cons, List.findIdx?_cons, h.1, ih h.2]

/-- **Arguments that are left out read as `undefined`.** A candidate accepts a call exactly if it
accepts it with any number of `undefined` behind, for all calls, if and only if the last of its
required positions that expects one kind does not expect `undefined`. So where all candidates are
of this sort, a call that goes on with `undefined` goes to the same one. -/
theorem padding_irrelevant_iff :
    (∀ c : Candidate,
        (∀ call k, c.accepts (call ++ List.replicate k .undefined) = c.accepts call) ↔
          ∀ i, IsGreatest {i | i < c.required ∧ ∃ e, c.expected[i]? = some (some e)} i →
            c.expected[i]? ≠ some (some .undefined)) ∧
      ∀ candidates : List Candidate,
        (∀ c ∈ candidates,
          ∀ i, IsGreatest {i | i < c.required ∧ ∃ e, c.expected[i]? = some (some e)} i →
            c.expected[i]? ≠ some (some .undefined)) →
        ∀ call k, pick? candidates (call ++ List.replicate k .undefined) =
          pick? candidates call := by
  refine ⟨fun c => Candidate.accepts_padded_eq_iff, ?_⟩
  intro candidates hpad call k
  apply pick?_congr
  intro c hc
  exact Candidate.accepts_padded_eq_iff.mpr (hpad c hc) call k

/-- A required `undefined` before a required text does no harm; one behind it makes the difference
between a call that ends and one that goes on. -/
theorem padding_irrelevant_iff_text_last :
    (∀ call k, pick? [⟨[some .undefined, some .string, none], 3⟩] (call ++ List.replicate k
        .undefined) = pick? [⟨[some .undefined, some .string, none], 3⟩] call) ∧
      pick? [⟨[some .string, some .undefined], 2⟩] [.string] = none ∧
      pick? [⟨[some .string, some .undefined], 2⟩] [.string, .undefined] = some 0 := by
  refine ⟨padding_irrelevant_iff.2 _ ?_, by decide, by decide⟩
  intro c hc i hi hundef
  obtain rfl := List.mem_singleton.mp hc
  -- The text stands behind the position that expects `undefined`.
  have hlast : 1 ≤ i := hi.2 ⟨by decide, .string, rfl⟩
  obtain rfl | rfl : i = 1 ∨ i = 2 := by
    have hreq : i < 3 := hi.1.1
    omega
  · cases hundef
  · cases hundef

end IdlBindings
