import IdlBindings.IdlType

/-!
# Definitions of a document

A document is a list of definitions in the order in which they are written. Both ways of writing a
document, as text and as a syntax tree, are read into this form, and everything after it works on
it alone.

## Main definitions

* `Definition`: an interface, mixin, dictionary, enumeration, type definition or includes statement
* `Member`: an operation, attribute or constructor of an interface or mixin
-/
namespace IdlBindings

/-- An extended attribute, such as `[SameObject]` or `[Exposed=Window]`, with the text of its
right-hand side if it has one. -/
structure ExtAttr where
  name : String
  value : Option String
deriving DecidableEq, Repr

/-- An argument of an operation or constructor. A variadic argument is always optional. The default
value is kept as it would be written, so a text literal keeps its quotes. -/
structure Argument where
  name : String
  type : IdlType
  optional : Bool
  variadic : Bool
  default : Option String
deriving DecidableEq, Repr

/-- An operation. It has no result type when it returns `undefined`. -/
structure Operation where
  name : String
  arguments : List Argument
  result : Option IdlType
  isStatic : Bool
  extAttrs : List ExtAttr
deriving DecidableEq, Repr

structure Attribute where
  name : String
  type : IdlType
  readonly : Bool
  isStatic : Bool
  extAttrs : List ExtAttr
deriving DecidableEq, Repr

/-- The attribute promises to return the same object at every access. -/
def Attribute.isSameObject (a : Attribute) : Bool := a.extAttrs.any fun e => e.name == "SameObject"

structure Constructor where
  arguments : List Argument
  extAttrs : List ExtAttr
deriving DecidableEq, Repr

/-- A member of an interface or mixin. -/
inductive Member where
  | operation (op : Operation)
  | attribute (attr : Attribute)
  | constructor (ctor : Constructor)
deriving DecidableEq, Repr

/-- A member of a dictionary. -/
structure Field where
  name : String
  type : IdlType
  required : Bool
  default : Option String
deriving DecidableEq, Repr

structure InterfaceDef where
  name : String
  isPartial : Bool
  parent : Option String
  members : List Member
  extAttrs : List ExtAttr
deriving DecidableEq, Repr

structure MixinDef where
  name : String
  isPartial : Bool
  members : List Member
deriving DecidableEq, Repr

structure DictionaryDef where
  name : String
  isPartial : Bool
  parent : Option String
  fields : List Field
deriving DecidableEq, Repr

/-- An enumeration with its literals as written, repetitions included. -/
structure EnumDef where
  name : String
  values : List String
deriving DecidableEq, Repr

structure TypedefDef where
  name : String
  type : IdlType
deriving DecidableEq, Repr

/-- The statement that adds the members of a mixin to an interface. -/
structure IncludesDef where
  target : String
  mixin : String
deriving DecidableEq, Repr

/-- A top-level definition of a document. -/
inductive Definition where
  | interface (d : InterfaceDef)
  | mixin (d : MixinDef)
  | dictionary (d : DictionaryDef)
  | enumeration (d : EnumDef)
  | typedef (d : TypedefDef)
  | includes (d : IncludesDef)
deriving DecidableEq, Repr

end IdlBindings
