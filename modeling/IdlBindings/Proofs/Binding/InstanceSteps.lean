import IdlBindings.Proofs.Binding.ArgumentRoom

/-!
# Steps on the instance

Few steps of a callback work with the instance it is called on: the constructor wraps it, other
callbacks unwrap it, and accessors use its slots. All of them stand in the frame of the callback.
The code for its signatures, which is most of the text, has none.

## Main definitions

* `Action.isInstanceStep`: the step works with the instance
* `Block.instanceSteps`: all such steps of a block
-/
namespace IdlBindings

/-- The step works with the instance that the callback is called on. -/
def Action.isInstanceStep : Action → Bool
  | unwrap _ => true
  | wrap _ _ => true
  | loadSlot _ => true
  | storeSlot _ => true
  | clearSlot _ => true
  | _ => false

namespace Block

/-- The steps of a block that work with the instance, in the order of the text. -/
def instanceSteps (b : Block) : List Action := b.actions.filter Action.isInstanceStep

@[simp] theorem instanceSteps_done : done.instanceSteps = [] := rfl

@[simp] theorem instanceSteps_choice (test : Test) (yes no : Block) :
    (choice test yes no).instanceSteps = yes.instanceSteps ++ no.instanceSteps := by
  simp [instanceSteps, choice, actions]

end Block

/-! ## Signatures -/

variable {m : Model} {i : Interface}

namespace Model

end Model

/-! ## Callbacks -/

namespace Interface

end Interface
end IdlBindings
