import IdlBindings.Signature

/-!
# What a candidate accepts

Acceptance is a condition on the number of arguments and one on each argument alone. Beyond a number
of arguments that a candidate accepts, it takes `undefined` at every position, so a call may go on
with it for as long as it likes. At every position there is some kind that a candidate takes, hence
for every number of arguments that it accepts there is a call of that length.

## Main definitions

* `Candidate.sample`: a kind that a candidate takes at a position
* `Candidate.sampleCall`: a call of such kinds
-/
namespace IdlBindings.Candidate

variable {c : Candidate} {call : List ValueCategory} {i n : Nat} {v : ValueCategory}

/-- A call is too short exactly if it leaves out a required argument of some expected kind. -/
theorem acceptsCount_iff :
    c.acceptsCount n = true ↔
      ∀ i e, n ≤ i → i < c.required → c.expected[i]? ≠ some (some e) := by
  simp only [acceptsCount, List.all_eq_true]
  constructor
  · intro h i e hn hr he
    have hmem : some e ∈ (c.expected.take c.required).drop n := by
      rw [List.mem_iff_getElem?]
      refine ⟨i - n, ?_⟩
      rw [List.getElem?_drop, Nat.add_sub_cancel' hn, List.getElem?_take_of_lt hr, he]
    simpa using h (some e) hmem
  · intro h o ho
    obtain ⟨k, hk⟩ := List.mem_iff_getElem?.mp ho
    rw [List.getElem?_drop, List.getElem?_take] at hk
    split at hk
    · cases o with
      | none => rfl
      | some e => exact absurd hk (h (n + k) e (by omega) (by assumption))
    · simp at hk

theorem acceptsCount_mono {m : Nat} (h : c.acceptsCount n = true) (hnm : n ≤ m) :
    c.acceptsCount m = true := by
  rw [acceptsCount_iff] at h ⊢
  intro i e hm hr
  exact h i e (by omega) hr

/-- A call that names every argument is never too short. -/
theorem acceptsCount_length (c : Candidate) : c.acceptsCount c.expected.length = true := by
  rw [acceptsCount_iff]
  intro i e hi _
  simp [List.getElem?_eq_none hi]

/-- Acceptance of a call, one argument at a time. -/
theorem accepts_iff :
    c.accepts call = true ↔
      c.acceptsCount call.length = true ∧
        ∀ i v, call[i]? = some v → c.acceptsAt i v = true := by
  simp only [accepts, Bool.and_eq_true, List.all_eq_true]
  refine and_congr_right fun _ => ⟨?_, ?_⟩
  · intro h i v hv
    exact h (v, i) (List.mk_mem_zipIdx_iff_getElem?.mpr hv)
  · rintro h ⟨v, i⟩ hv
    exact h i v (List.mk_mem_zipIdx_iff_getElem?.mp hv)

/-- Where a call may end, `undefined` may follow. -/
theorem acceptsAt_undefined (h : c.acceptsCount n = true) (hi : n ≤ i) :
    c.acceptsAt i .undefined = true := by
  unfold acceptsAt
  cases he : c.expected[i]? with
  | none => rfl
  | some o =>
    cases o with
    | none => rfl
    | some e =>
      have hr : c.required ≤ i :=
        Nat.le_of_not_lt fun hlt => acceptsCount_iff.mp h i e hi hlt he
      simp [hr]

/-- Beyond its last position a candidate takes nothing but `undefined`. -/
theorem eq_undefined_of_acceptsAt (h : c.acceptsAt i v = true) (hi : c.expected.length ≤ i) :
    v = .undefined := by
  simpa [acceptsAt, List.getElem?_eq_none hi] using h

/-! ## Calls that are accepted -/

/-- A kind that the candidate takes at a position: the expected one, or `undefined` if any will
do. -/
def sample (c : Candidate) (i : Nat) : ValueCategory := c.expected[i]?.join.getD .undefined

theorem acceptsAt_sample (c : Candidate) (i : Nat) : c.acceptsAt i (c.sample i) = true := by
  unfold acceptsAt sample
  rcases c.expected[i]? with _ | _ | e <;> simp

/-- A call with `n` arguments that the candidate takes where they stand. -/
def sampleCall (c : Candidate) (n : Nat) : List ValueCategory := (List.range n).map c.sample

@[simp] theorem length_sampleCall (c : Candidate) (n : Nat) : (c.sampleCall n).length = n := by
  simp [sampleCall]

theorem accepts_sampleCall (h : c.acceptsCount n = true) : c.accepts (c.sampleCall n) = true := by
  rw [accepts_iff, length_sampleCall]
  refine ⟨h, ?_⟩
  intro i v hv
  have hi : i < n := by
    simpa using (List.getElem?_eq_some_iff.mp hv).1
  obtain rfl : c.sample i = v := by
    simpa [sampleCall, List.getElem?_range hi] using hv
  exact acceptsAt_sample c i

/-- An argument of an accepted call may be exchanged for any kind that its position takes. -/
theorem accepts_set (h : c.accepts call = true) (hv : c.acceptsAt i v = true) :
    c.accepts (call.set i v) = true := by
  rw [accepts_iff, List.length_set] at *
  refine ⟨h.1, ?_⟩
  intro k u hu
  by_cases hik : i = k
  · subst hik
    rw [List.getElem?_set_self'] at hu
    obtain ⟨_, _, rfl⟩ := Option.map_eq_some_iff.mp hu
    exact hv
  · rw [List.getElem?_set_ne hik] at hu
    exact h.2 k u hu

end IdlBindings.Candidate
