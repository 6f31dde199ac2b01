import IdlBindings.Binding.Callback
import Mathlib.Data.List.Basic
import Mathlib.Order.Bounds.Defs

/-!
# Runs of a callback

A run of a block takes its steps in order, and at a choice goes one way. Which way is told by the
outcome of the test, so a block has one run for each assignment of outcomes. Whatever is shown for
all of them holds in every branch of the code.

A supported signature converts its arguments and then goes to exactly one rung of its ladder, the
one for the last argument that is present.

## Main definitions

* `Block.run`: the steps of a run
* `IsEnd`: the end of a list up to the last index of some kind
* `Invocation.IsSupported`: the signature has bindings
-/
namespace IdlBindings

/-- The larger of `least` and one past the last index with `p`. -/
def IsEnd (least : Nat) (p : Nat → Prop) (n : Nat) : Prop :=
  IsGreatest {k | k = least ∨ ∃ i, p i ∧ k = i + 1} n

namespace Block

/-- The steps of a block where tests have the given outcomes. -/
def run (holds : Test → Bool) : Block → List Action
  | done => []
  | act a rest => a :: rest.run holds
  | choose test yes no rest =>
    (if holds test then yes.run holds else no.run holds) ++ rest.run holds

variable {holds : Test → Bool}

@[simp] theorem run_done : done.run holds = [] := rfl

@[simp] theorem run_act (a : Action) (rest : Block) :
    (act a rest).run holds = a :: rest.run holds := rfl

@[simp] theorem run_choice (test : Test) (yes no : Block) :
    (choice test yes no).run holds = if holds test then yes.run holds else no.run holds := by
  simp [choice, run]

@[simp] theorem run_append (a b : Block) :
    (a.append b).run holds = a.run holds ++ b.run holds := by
  induction a with
  | done => rfl
  | act x rest ih => simp [append, run, ih]
  | choose test yes no rest _ _ ih => simp [append, run, ih]

@[simp] theorem run_ofActions (as : List Action) : (ofActions as).run holds = as := by
  induction as with
  | nil => rfl
  | cons a as ih => rw [ofActions, run_act, ih]

@[simp] theorem actions_ofActions (as : List Action) : (ofActions as).actions = as := by
  induction as with
  | nil => rfl
  | cons a as ih => rw [ofActions, actions, ih]

/-- A run takes only steps that the code has. -/
theorem mem_actions_of_mem_run {b : Block} {a : Action} (ha : a ∈ b.run holds) :
    a ∈ b.actions := by
  induction b with
  | done => cases ha
  | act x rest ih =>
      rcases List.mem_cons.mp ha with rfl | ha
      · exact List.mem_cons_self
      · exact List.mem_cons_of_mem x (ih ha)
  | choose test yes no rest ihyes ihno ihrest =>
      rw [actions, List.mem_append, List.mem_append]
      rw [run, List.mem_append] at ha
      rcases ha with ha | ha
      · by_cases htest : holds test = true
        · exact .inl (.inl (ihyes (by simpa [htest] using ha)))
        · exact .inl (.inr (ihno (by simpa [htest] using ha)))
      · exact .inr (ihrest ha)

theorem run_foldr_append (blocks : List Block) (last : Block) :
    (blocks.foldr append last).run holds =
      blocks.flatMap (fun b => b.run holds) ++ last.run holds := by
  induction blocks with
  | nil => rfl
  | cons b blocks ih => rw [List.foldr_cons, run_append, ih, List.flatMap_cons, List.append_assoc]

theorem actions_foldr_append (blocks : List Block) (last : Block) :
    (blocks.foldr append last).actions = blocks.flatMap actions ++ last.actions := by
  induction blocks with
  | nil => rfl
  | cons b blocks ih =>
      rw [List.foldr_cons, ← append_eq, actions_append, ih, List.flatMap_cons, List.append_assoc]

/-- A run of a ladder is the run of the rung for the last argument that is present. -/
theorem exists_run_ladder (holds : Test → Bool) (callWith : Nat → Block) (least more : Nat) :
    ∃ passed,
      IsEnd least (fun i => least ≤ i ∧ i < least + more ∧ holds (.present i) = true) passed ∧
      (ladder callWith least more).run holds = (callWith passed).run holds := by
  induction more with
  | zero =>
      refine ⟨least, ⟨.inl rfl, ?_⟩, rfl⟩
      rintro _ (rfl | ⟨i, ⟨hleast, hmost, _⟩, rfl⟩) <;> omega
  | succ more ih =>
      obtain ⟨passed, ⟨hpassed, hgreatest⟩, hrun⟩ := ih
      rw [ladder, run_choice]
      by_cases htest : holds (.present (least + more)) = true
      · refine ⟨least + more + 1, ⟨.inr ⟨_, ⟨by omega, by omega, htest⟩, rfl⟩, ?_⟩, if_pos htest⟩
        rintro _ (rfl | ⟨i, ⟨hleast, hmost, _⟩, rfl⟩) <;> omega
      · refine ⟨passed, ⟨?_, ?_⟩, by rw [if_neg htest, hrun]⟩
        · rcases hpassed with rfl | ⟨i, ⟨hleast, hmost, hpresent⟩, rfl⟩
          · exact .inl rfl
          · exact .inr ⟨i, ⟨hleast, by omega, hpresent⟩, rfl⟩
        · rintro _ (rfl | ⟨i, ⟨hleast, hmost, hpresent⟩, rfl⟩)
          · exact hgreatest (.inl rfl)
          · -- The one index that is new is not present.
            have hne : i ≠ least + more := by
              rintro rfl
              exact htest hpresent
            exact hgreatest (.inr ⟨i, ⟨hleast, by omega, hpresent⟩, rfl⟩)

/-- Every step in the code of a ladder is in the code of a rung. -/
theorem exists_mem_actions_of_ladder {callWith : Nat → Block} {least more : Nat} {a : Action}
    (ha : a ∈ (ladder callWith least more).actions) : ∃ passed, a ∈ (callWith passed).actions := by
  induction more with
  | zero => exact ⟨least, ha⟩
  | succ more ih =>
      have hsplit : a ∈ (callWith (least + more + 1)).actions ∨
          a ∈ (ladder callWith least more).actions := by
        simpa [ladder, choice, actions] using ha
      rcases hsplit with hrung | hbelow
      · exact ⟨_, hrung⟩
      · exact ih hbelow

end Block

/-! ## Supported signatures -/

/-- The signature has bindings: no argument stands for many, and every type resolves. -/
structure Invocation.IsSupported (m : Model) (call : Invocation) : Prop where
  arguments : ∀ a ∈ call.arguments, a.variadic = false ∧ (m.resolve? a.type).isSome = true
  result : ∀ t, call.result = some t → (m.resolve? t).isSome = true

theorem Invocation.isSupported_iff {m : Model} {call : Invocation} :
    call.IsSupported m ↔
      (call.arguments.all fun a => !a.variadic && (m.resolve? a.type).isSome) = true ∧
        (call.result.all fun t => (m.resolve? t).isSome) = true := by
  have hresult : (call.result.all fun t => (m.resolve? t).isSome) = true ↔
      ∀ t, call.result = some t → (m.resolve? t).isSome = true := by
    cases call.result <;> simp
  rw [hresult, List.all_eq_true]
  simp only [Bool.and_eq_true, Bool.not_eq_true']
  exact ⟨fun h => ⟨h.arguments, h.result⟩, fun h => ⟨h.1, h.2⟩⟩

instance (m : Model) (call : Invocation) : Decidable (call.IsSupported m) :=
  decidable_of_iff _ Invocation.isSupported_iff.symm

theorem exists_mapM_of_isSome {α β : Type} {f : α → Option β} {xs : List α}
    (h : ∀ x ∈ xs, (f x).isSome = true) : ∃ ys, xs.mapM f = some ys := by
  induction xs with
  | nil => exact ⟨[], rfl⟩
  | cons x xs ih =>
      rw [List.forall_mem_cons] at h
      obtain ⟨y, hy⟩ := Option.isSome_iff_exists.mp h.1
      obtain ⟨ys, hys⟩ := ih h.2
      exact ⟨y :: ys, by simp [List.mapM_cons, hy, hys]⟩

namespace Invocation.IsSupported

variable {m : Model} {call : Invocation}

theorem exists_boundArguments (h : call.IsSupported m) :
    ∃ bound, call.boundArguments? m = some bound := by
  refine exists_mapM_of_isSome fun a ha => ?_
  obtain ⟨hvariadic, hresolve⟩ := h.arguments a ha
  simp [hvariadic, Model.conversion?, hresolve]

theorem boundResult?_eq (h : call.IsSupported m) :
    call.boundResult? m = some (call.result.bind m.resolve?) := by
  rw [boundResult?]
  cases hresult : call.result with
  | none => rfl
  | some t =>
      obtain ⟨kind, hkind⟩ := Option.isSome_iff_exists.mp (h.result t hresult)
      simp [hkind]

end Invocation.IsSupported

/-- A step that brings an argument of the call into its native variable. -/
def Action.isArgumentStep : Action → Bool
  | declareValue _ _ _ => true
  | findArgument _ => true
  | toNative _ _ _ => true
  | _ => false

theorem Model.isArgumentStep_of_mem_argumentBlock {m : Model} {arg : Argument}
    {conversion : Conversion} {index : Nat} {a : Action}
    (ha : a ∈ (m.argumentBlock arg conversion index).actions) : a.isArgumentStep = true := by
  rw [argumentBlock] at ha
  cases harg : arg.optional with
  | true =>
      have hcases : a = .declareValue conversion.native (.argument index) (m.initializer arg) ∨
          a = .findArgument index ∨ a = .toNative conversion.converter index (.argument index) := by
        simpa [harg, Block.actions, Block.choice] using ha
      rcases hcases with rfl | rfl | rfl <;> rfl
  | false =>
      have hcases : a = .declareValue conversion.native (.argument index) (m.initializer arg) ∨
          a = .toNative conversion.converter index (.argument index) := by
        simpa [harg, Block.actions] using ha
      rcases hcases with rfl | rfl <;> rfl

section Invoke

variable {m : Model} {call : Invocation}

/-- The conversions of a signature belong to its arguments in order. -/
theorem Invocation.map_fst_boundArguments {bound : List (Argument × Conversion)}
    (hbound : call.boundArguments? m = some bound) : bound.map Prod.fst = call.arguments := by
  rw [boundArguments?] at hbound
  generalize call.arguments = arguments at hbound ⊢
  induction arguments generalizing bound with
  | nil =>
      cases hbound
      rfl
  | cons a arguments ih =>
      simp only [List.mapM_cons, Option.bind_eq_bind, Option.bind_eq_some_iff] at hbound
      obtain ⟨pair, hpair, rest, hrest, heq⟩ := hbound
      cases heq
      split at hpair
      · cases hpair
      · obtain ⟨conversion, _, rfl⟩ := Option.map_eq_some_iff.mp hpair
        rw [List.map_cons, ih hrest]

/-- The blocks that bring in the arguments of a signature. -/
def Model.argumentBlocks (m : Model) (bound : List (Argument × Conversion)) : List Block :=
  bound.zipIdx.map fun ((a, c), i) => m.argumentBlock a c i

theorem Model.isArgumentStep_of_mem_argumentBlocks {bound : List (Argument × Conversion)}
    {b : Block} (hb : b ∈ m.argumentBlocks bound) {a : Action} (ha : a ∈ b.actions) :
    a.isArgumentStep = true := by
  obtain ⟨⟨⟨arg, conversion⟩, index⟩, _, rfl⟩ := List.mem_map.mp hb
  exact isArgumentStep_of_mem_argumentBlock ha

/-- The code of a supported signature brings in its arguments and then is a ladder of calls. -/
theorem Model.exists_invoke_eq (h : call.IsSupported m) :
    ∃ bound : List (Argument × Conversion), bound.map Prod.fst = call.arguments ∧
      m.invoke call = (m.argumentBlocks bound).foldr Block.append
        (ladder (call.callBlock (call.result.bind m.resolve?)) (m.alwaysPassed call.arguments)
          (call.arguments.length - m.alwaysPassed call.arguments)) := by
  obtain ⟨bound, hbound⟩ := h.exists_boundArguments
  refine ⟨bound, Invocation.map_fst_boundArguments hbound, ?_⟩
  rw [invoke]
  simp only [hbound, h.boundResult?_eq]
  rfl

theorem Model.alwaysPassed_le (m : Model) (arguments : List Argument) :
    m.alwaysPassed arguments ≤ arguments.length := by
  simpa [alwaysPassed] using
    (List.dropWhile_sublist (fun a => !m.isAlwaysPassed a) (l := arguments.reverse)).length_le

/-- A run of a supported signature ends in one call, which passes the arguments up to the last that
is present. -/
theorem Model.exists_run_invoke (h : call.IsSupported m) (holds : Test → Bool) :
    ∃ before passed, ((∀ a ∈ before, a.isArgumentStep = true) ∧
      IsEnd (m.alwaysPassed call.arguments) (fun i => m.alwaysPassed call.arguments ≤ i ∧
        i < call.arguments.length ∧ holds (.present i) = true) passed) ∧
      (m.invoke call).run holds =
        before ++ (call.callBlock (call.result.bind m.resolve?) passed).run holds := by
  obtain ⟨bound, _, heq⟩ := exists_invoke_eq h
  obtain ⟨passed, hpassed, hrun⟩ := Block.exists_run_ladder holds
    (call.callBlock (call.result.bind m.resolve?)) (m.alwaysPassed call.arguments)
    (call.arguments.length - m.alwaysPassed call.arguments)
  rw [Nat.add_sub_of_le (m.alwaysPassed_le call.arguments)] at hpassed
  refine ⟨(m.argumentBlocks bound).flatMap fun b => b.run holds, passed, ⟨?_, hpassed⟩, ?_⟩
  · intro a ha
    obtain ⟨b, hb, ha⟩ := List.mem_flatMap.mp ha
    exact isArgumentStep_of_mem_argumentBlocks hb (Block.mem_actions_of_mem_run ha)
  · rw [heq, Block.run_foldr_append, hrun]

/-- Every step in the code of a supported signature belongs to an argument or to a call. -/
theorem Model.mem_actions_invoke (h : call.IsSupported m) {a : Action}
    (ha : a ∈ (m.invoke call).actions) :
    a.isArgumentStep = true ∨
      ∃ passed, a ∈ (call.callBlock (call.result.bind m.resolve?) passed).actions := by
  obtain ⟨bound, _, heq⟩ := exists_invoke_eq h
  rw [heq, Block.actions_foldr_append, List.mem_append, List.mem_flatMap] at ha
  rcases ha with ⟨b, hb, ha⟩ | ha
  · exact .inl (isArgumentStep_of_mem_argumentBlocks hb ha)
  · exact .inr (Block.exists_mem_actions_of_ladder ha)

end Invoke

end IdlBindings
