import IdlBindings.Signature

/-!
# Checking a model

A name stands for static operations or for operations of instances, never for both. Overloads that
can never be chosen are allowed, but warned about.

## Main definitions

* `MixedStatic`: an operation that is both
* `Model.check`: the warnings for a model, or the first mixed operation
-/
namespace IdlBindings

/-- An operation with static and other overloads. -/
structure MixedStatic where
  interface : String
  operation : String
deriving DecidableEq, Repr

def MixedStatic.message (e : MixedStatic) : String :=
  "Operation '" ++ e.interface ++ "." ++ e.operation ++ "' mixes static and non-static overloads"

/-- Operations of one name are all static or all not. -/
def isMixed (ops : List Operation) : Bool :=
  ops.any Operation.isStatic && !ops.all Operation.isStatic

def Interface.checkStatic (i : Interface) : Except MixedStatic Unit :=
  match i.overloadSets.find? fun set => isMixed set.2 with
  | some set => .error ⟨i.name, set.1⟩
  | none => .ok ()

/-- The types of a signature, as a warning shows them. -/
def describeSignature (arguments : List Argument) : String :=
  let types := arguments.map fun a => if a.optional then "optional " ++ a.type.text else a.type.text
  "(" ++ String.intercalate ", " types ++ ")"

/-- A warning for each signature that an earlier one hides. -/
def unreachableWarnings (m : Model) (name : String) (signatures : List (List Argument)) :
    List String :=
  let candidates := signatures.map (Candidate.ofArguments m)
  signatures.zipIdx.filterMap fun (arguments, index) => do
    let earlier ← signatures[← shadowedBy? candidates index]?
    return name ++ describeSignature arguments ++ " is unreachable: " ++ name ++
      describeSignature earlier ++ " accepts every call it accepts"

def Interface.warnings (m : Model) (i : Interface) : List String :=
  unreachableWarnings m (i.name ++ " constructor") (i.constructors.map Constructor.arguments) ++
    i.overloadSets.flatMap fun (name, ops) =>
      unreachableWarnings m (i.name ++ "." ++ name) (ops.map Operation.arguments)

/-- The warnings for a model. -/
def Model.check (m : Model) : Except MixedStatic (List String) := do
  let warnings ← m.interfaces.mapM fun i => do
    i.checkStatic
    return i.warnings m
  return warnings.flatten

end IdlBindings
