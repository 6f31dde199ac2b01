import IdlBindings.Binding.Unit
import IdlBindings.Proofs.Model.Overloads
import Mathlib.Data.List.Basic

/-!
# Converters that a unit refers to

The functions of a unit call converters: those of a converter call the ones of the types that it is
made of, and those of an interface the ones of its members' types. Which converter stands for a type
is told by resolution alone, so each reference is traced back to a type of the document.

## Main definitions

* `Model.converter?`: the converter of a type
* `BindingUnit.references`: all converters that the functions of a unit call
-/
namespace IdlBindings

/-- The converters that a step calls. -/
def Action.references : Action → List Converter
  | toNative converter _ _ => [converter]
  | toJs converter _ => [converter]
  | _ => []

/-- The converters that the steps of a block call. -/
def Block.references (b : Block) : List Converter := b.actions.flatMap Action.references

/-- The converters that the functions of a unit call: first those of the converters it defines, then
the callbacks. -/
def BindingUnit.references (u : BindingUnit) : List Converter :=
  u.defined.flatMap (fun p => p.rule.references) ++
    u.interfaces.flatMap fun b => b.callbacks.flatMap fun f => f.body.references

/-! ## Blocks -/

namespace Block

end Block

/-! ## Signatures -/

variable {m : Model} {x : IdlType} {c : Converter}

namespace Invocation

/-- The types of a signature: arguments first, then the result. -/
def types (call : Invocation) : List IdlType :=
  call.arguments.map Argument.type ++ call.result.toList

end Invocation

namespace Interface

variable {i : Interface}

/-- The types of an interface: those of its members. -/
def types (i : Interface) : List IdlType := i.members.flatMap Member.types

@[simp] theorem references_readArguments (room : Nat) (receiver : Bool) :
    (readArguments room receiver).flatMap Action.references = [] := by
  rw [readArguments]
  split <;> split <;> rfl

@[simp] theorem references_unwrapReceiver (owner : String) :
    (unwrapReceiver owner).flatMap Action.references = [] := rfl

end Interface
end IdlBindings
