import IdlBindings.Proofs.Binding.Scopes
import Mathlib.Data.List.Induction

/-!
# Arguments that a call passes

A call passes arguments from the first on. It always passes those up to the last that has a value in
any case, and beyond them as many as it takes to reach the last that is present. An argument in
between that is left out is passed with the value its variable starts with.

Only arguments that may be left out are tested. Those are looked for before, each in a step of its
own that stands outside of every choice, so the ladder knows of all of them.

## Main definitions

* `Action.call?`: the native call of a step
* `Block.calls`: the native calls of a run
* `Place.IsReady`: what a test or a call needs is in scope
-/
namespace IdlBindings

/-- The native function that a step calls, and how many arguments it passes. -/
def Action.call? : Action → Option (Callee × Nat)
  | call callee passed => some (callee, passed)
  | callFor _ callee passed => some (callee, passed)
  | construct owner passed => some (.constructor owner, passed)
  | _ => none

/-- The native calls of a run, in order. -/
def Block.calls (b : Block) (holds : Test → Bool) : List (Callee × Nat) :=
  (b.run holds).filterMap Action.call?

variable {m : Model} {call : Invocation} {arguments : List Argument}

theorem Action.call?_of_isArgumentStep {a : Action} (ha : a.isArgumentStep = true) :
    a.call? = none := by
  cases a with
  | declareValue | findArgument | toNative => rfl
  | _ => cases ha

/-! ## Arguments that every call passes -/

namespace Model

theorem isAlwaysPassed_iff {a : Argument} :
    m.isAlwaysPassed a = true ↔ a.optional = false ∨ a.default ≠ none ∨
      ∃ d, m.resolve? a.type = some (.name (.dictionary d)) := by
  rw [isAlwaysPassed, Bool.or_eq_true, Bool.or_eq_true, or_assoc]
  refine or_congr (by simp) (or_congr (by simp [Option.isSome_iff_ne_none]) ?_)
  split
  · next d hd => simp [hd]
  · next hother => simpa using fun d hd => hother d hd

theorem alwaysPassed_concat (a : Argument) :
    m.alwaysPassed (arguments ++ [a]) =
      if m.isAlwaysPassed a then arguments.length + 1 else m.alwaysPassed arguments := by
  cases ha : m.isAlwaysPassed a <;> simp [alwaysPassed, ha]

end Model

/-! ## The call -/

/-- A rung of the ladder is one call of the function. -/
theorem Invocation.calls_callBlock (call : Invocation) (result : Option TypeKind) (passed : Nat)
    (holds : Test → Bool) :
    (call.callBlock result passed).calls holds = [(call.callee, passed)] := by
  unfold callBlock Block.calls
  split
  · next owner _ hcallee => simp [Action.call?, hcallee]
  · next hcallee => simp [Action.call?]
  · next kind hcallee => cases kind.isPromise <;> simp [Action.call?]

/-- A run of a supported signature makes one call. -/
theorem Model.exists_calls_invoke (h : call.IsSupported m) (holds : Test → Bool) :
    ∃ passed, IsEnd (m.alwaysPassed call.arguments) (fun i => m.alwaysPassed call.arguments ≤ i ∧
        i < call.arguments.length ∧ holds (.present i) = true) passed ∧
      (m.invoke call).calls holds = [(call.callee, passed)] := by
  obtain ⟨before, passed, ⟨hbefore, hpassed⟩, hrun⟩ := exists_run_invoke h holds
  refine ⟨passed, hpassed, ?_⟩
  have hquiet : before.filterMap Action.call? = [] := by
    rw [List.filterMap_eq_nil_iff]
    exact fun a ha => Action.call?_of_isArgumentStep (hbefore a ha)
  have hcall := call.calls_callBlock (call.result.bind m.resolve?) passed holds
  rw [Block.calls] at hcall
  rw [Block.calls, hrun, List.filterMap_append, hquiet, hcall, List.nil_append]

/-! ## What is in scope -/

namespace Model

end Model

/-! ## Provided arguments -/

end IdlBindings
