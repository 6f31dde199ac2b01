import IdlBindings.Model
import IdlBindings.Scalar

/-!
# What a type refers to

A type has bindings if it is a known name, an alias that leads to one, or one wrapper around such a
name. Wrappers do not nest, also not through an alias.

Aliases may form cycles. A chain of aliases that is longer than the number of aliases repeats one,
so following it for that many steps tells whether it ends. What a chain ends in is never an alias.
So the aliases are gone through once, to the name or the wrapper that a type stands for, and once
more inside a wrapper. A recursion that goes through them as often as they come up has the same
result on every model (`Proofs.Model.Unbounded`).

## Main definitions

* `NameKind`, `TypeKind`: what a name or type refers to
* `Model.expand?`: the end of a chain of aliases
* `Model.resolve?`: the kind of a type, or none for a type without bindings
* `Model.expectedCategory?`: the kind of host value a type converts from
-/
namespace IdlBindings

/-- The wrappers with bindings. -/
inductive Wrapper where
  | promise
  | sequence
  | frozenArray
deriving DecidableEq, Repr

namespace Wrapper

def ofName? (name : String) : Option Wrapper :=
  if name = "Promise" then some promise
  else if name = "sequence" then some sequence
  else if name = "FrozenArray" then some frozenArray
  else none

/-- The native template. Both list wrappers have the same. -/
def template : Wrapper → String
  | promise => "WebIdlNapi::Promise"
  | sequence => "WebIdlNapi::sequence"
  | frozenArray => "WebIdlNapi::sequence"

end Wrapper

/-- What a name refers to. -/
inductive NameKind where
  | scalar (s : Scalar)
  | enumeration (e : Enumeration)
  | dictionary (d : Dictionary)
  | interface (i : Interface)
  /-- An alias, with the scalar that it names directly if it does. -/
  | typedef (t : Typedef) (basic : Option Scalar)
deriving Repr

/-- What a type with bindings refers to. -/
inductive TypeKind where
  | name (kind : NameKind)
  /-- A wrapper around a name. -/
  | generic (wrapper : Wrapper) (inner : String) (kind : NameKind)
deriving Repr

namespace Model

/-- Follows aliases from a type for at most `n` steps. -/
def follow? (m : Model) : Nat → IdlType → Option IdlType
  | _, .generic wrapper inner => some (.generic wrapper inner)
  | n, .named name =>
    match m.typedef? name with
    | none => some (.named name)
    | some t =>
      match n with
      | 0 => none
      | n + 1 => m.follow? n t.target

/-- The type that an alias stands for, which is a wrapper or a name that is no alias; none if the
aliases form a cycle. -/
def expand? (m : Model) (t : Typedef) : Option IdlType := m.follow? m.typedefs.length t.target

/-- The kind of a name, where `isBound` tells which aliases have bindings. An alias that names a
scalar directly always has. -/
def nameKind? (m : Model) (isBound : Typedef → Bool) (name : String) : Option NameKind :=
  match Scalar.find? name with
  | some s => some (.scalar s)
  | none =>
    match m.enum? name with
    | some e => some (.enumeration e)
    | none =>
      match m.dictionary? name with
      | some d => some (.dictionary d)
      | none =>
        match m.interface? name with
        | some i => some (.interface i)
        | none =>
          match m.typedef? name with
          | none => none
          | some t =>
            let basic := match t.target with
              | .named target => Scalar.find? target
              | .generic _ _ => none
            if basic.isSome || isBound t then some (.typedef t basic) else none

/-- The kind of a name at the end of a chain of aliases. -/
def endKind? (m : Model) (name : String) : Option NameKind := m.nameKind? (fun _ => false) name

/-- The alias stands for a name with bindings. -/
def isPlainAlias (m : Model) (t : Typedef) : Bool :=
  match m.expand? t with
  | some (.named name) => (m.endKind? name).isSome
  | _ => false

/-- The alias stands for a wrapper. -/
def isGenericAlias (m : Model) (t : Typedef) : Bool :=
  match m.expand? t with
  | some (.generic _ _) => true
  | _ => false

/-- The kind of a wrapped name. Only a promise can be of no value, and that is told by the name
itself: an alias of the type of no value passes. -/
def genericKind? (m : Model) (wrapper inner : String) : Option TypeKind := do
  let w ← Wrapper.ofName? wrapper
  if (m.typedef? inner).any m.isGenericAlias then none
  else
    let kind ← m.nameKind? m.isPlainAlias inner
    match kind with
    | .scalar s =>
      if s.family = .undefined ∧ w ≠ .promise then none else some (.generic w inner kind)
    | _ => some (.generic w inner kind)

/-- The alias stands for a type with bindings. -/
def isBoundAlias (m : Model) (t : Typedef) : Bool :=
  match m.expand? t with
  | some (.named name) => (m.endKind? name).isSome
  | some (.generic wrapper (.named inner)) => (m.genericKind? wrapper inner).isSome
  | _ => false

/-- The kind of a type, or none for a type without bindings. -/
def resolve? (m : Model) : IdlType → Option TypeKind
  | .named name => (m.nameKind? m.isBoundAlias name).map .name
  | .generic wrapper (.named inner) => m.genericKind? wrapper inner
  | .generic _ (.generic _ _) => none

/-- The type refers to an interface. -/
def isInterface (m : Model) (t : IdlType) : Bool :=
  match m.resolve? t with
  | some (.name (.interface _)) => true
  | _ => false

/-- The kind of host value that a type converts from, following at most `n` aliases. -/
def categoryWithin? (m : Model) : Nat → IdlType → Option ValueCategory
  | n, t =>
    match m.resolve? t with
    | some (.name (.scalar s)) => some s.category
    | some (.name (.enumeration _)) => some .string
    | some (.name (.dictionary _)) => some .object
    | some (.name (.interface _)) => some .object
    | some (.name (.typedef inner _)) =>
      match n with
      | 0 => none
      | n + 1 => m.categoryWithin? n inner.target
    | some (.generic .promise _ _) => none
    | some (.generic _ _ _) => some .object
    | none => none

/-- The kind of host value that a type converts from, or none if any may do. -/
def expectedCategory? (m : Model) (t : IdlType) : Option ValueCategory :=
  m.categoryWithin? m.typedefs.length t

end Model
end IdlBindings
