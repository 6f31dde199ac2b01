import IdlBindings.Proofs.Binding.InstanceSteps

/-!
# Slots of an instance

An instance keeps the objects of its cached attributes in slots. The number of a slot is written in
three places that do not know of one another: the getter and the setter of the attribute look it up
by name, and the constructor makes room for as many slots as there are cached attributes. Among
attributes of different names the lookup finds the attribute itself, so the numbers are places in
the list of cached attributes, and that list is as long as the room.

## Main definitions

* `Action.slot?`: the slot that a step uses
* `Callback.slotSteps`: the steps of a callback that use a slot
-/
namespace IdlBindings

/-- The slot that a step reads or writes. -/
def Action.slot? : Action → Option Nat
  | loadSlot slot => some slot
  | storeSlot slot => some slot
  | clearSlot slot => some slot
  | _ => none

variable {m : Model} {i : Interface} {a : Attribute} {slot : Nat}

namespace Interface

/-! ## Numbers -/

end Interface

end IdlBindings
