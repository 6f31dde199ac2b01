import IdlBindings.Definition
import IdlBindings.Model.Resolve

/-!
# Choosing among overloads

Each signature of an overloaded operation is reduced to the kinds of values that its arguments take.
A call goes to the first signature, in the order of declaration, that accepts the kinds of its
arguments. A signature that accepts no call which an earlier one refuses is never chosen.

## Main definitions

* `Candidate`: what a signature accepts at each position
* `Candidate.accepts`: whether it accepts a call
* `Candidate.subsumes`: whether it accepts every call that another accepts, told from finitely many
  lengths and the kinds at each position
* `pick?`, `shadowedBy?`: the signature a call goes to, and the one that hides another
-/
namespace IdlBindings

/-- The kinds of arguments that a signature accepts. At each position one kind is expected, or any
will do; the first `required` arguments may not be left out. -/
structure Candidate where
  expected : List (Option ValueCategory)
  required : Nat
deriving DecidableEq, Repr

namespace Candidate

/-- The candidate for a list of arguments. -/
def ofArguments (m : Model) (arguments : List Argument) : Candidate where
  expected := arguments.map fun a => m.expectedCategory? a.type
  required := (arguments.takeWhile fun a => !a.optional).length

/-- The kind `v` may stand at position `i`. Beyond the last position only `undefined` may, and in
place of an argument that may be left out it may too. -/
def acceptsAt (c : Candidate) (i : Nat) (v : ValueCategory) : Bool :=
  match c.expected[i]? with
  | none => v == .undefined
  | some none => true
  | some (some e) => e == v || (v == .undefined && c.required ≤ i)

/-- A call with `n` arguments leaves out no required argument of an expected kind. -/
def acceptsCount (c : Candidate) (n : Nat) : Bool :=
  ((c.expected.take c.required).drop n).all Option.isNone

/-- The candidate accepts a call with arguments of these kinds. -/
def accepts (c : Candidate) (call : List ValueCategory) : Bool :=
  c.acceptsCount call.length && call.zipIdx.all fun (v, i) => c.acceptsAt i v

/-- The candidate accepts every call that `other` accepts. -/
def subsumes (c other : Candidate) : Bool :=
  (List.range (other.expected.length + 1)).all fun n =>
    !other.acceptsCount n ||
      (c.acceptsCount n &&
        (List.range n).all fun i =>
          ValueCategory.all.all fun v => !other.acceptsAt i v || c.acceptsAt i v)

end Candidate

/-- The first candidate that accepts a call. -/
def pick? (candidates : List Candidate) (call : List ValueCategory) : Option Nat :=
  candidates.findIdx? fun c => c.accepts call

/-- The first candidate that accepts every call which the one at `index` accepts. -/
def shadowedBy? (candidates : List Candidate) (index : Nat) : Option Nat := do
  let target ← candidates[index]?
  (candidates.take index).findIdx? fun c => c.subsumes target

end IdlBindings
