import IdlBindings.Definition

/-!
# The model of a document

What a document declares once its parts are put together: every interface and dictionary with its
complete list of members, every enumeration with its native enumerators, and every alias. Names are
looked up in the order of the lists, which is the order of the document.

## Main definitions

* `Model`: the four lists
* `Interface.overloadSets`: operations grouped by name
* `Interface.slot?`: where an instance keeps the object of a `[SameObject]` attribute
-/
namespace IdlBindings

/-- An interface with all its members: its own, those of its partial definitions and mixins, and the
inherited ones. -/
structure Interface where
  name : String
  members : List Member
deriving DecidableEq, Repr

/-- A dictionary with its own members, then the inherited ones. -/
structure Dictionary where
  name : String
  fields : List Field
deriving DecidableEq, Repr

/-- A literal of an enumeration and its native enumerator. -/
structure EnumValue where
  literal : String
  ident : String
deriving DecidableEq, Repr

structure Enumeration where
  name : String
  values : List EnumValue
deriving DecidableEq, Repr

/-- An alias of a type. -/
structure Typedef where
  name : String
  target : IdlType
deriving DecidableEq, Repr

/-- A document with its parts put together. -/
structure Model where
  interfaces : List Interface
  dictionaries : List Dictionary
  enums : List Enumeration
  typedefs : List Typedef
deriving DecidableEq, Repr

namespace Model

def interface? (m : Model) (name : String) : Option Interface :=
  m.interfaces.find? fun i => i.name == name

def dictionary? (m : Model) (name : String) : Option Dictionary :=
  m.dictionaries.find? fun d => d.name == name

def enum? (m : Model) (name : String) : Option Enumeration :=
  m.enums.find? fun e => e.name == name

def typedef? (m : Model) (name : String) : Option Typedef :=
  m.typedefs.find? fun t => t.name == name

end Model

/-! ## Members of an interface -/

namespace Member

def operation? : Member → Option Operation
  | operation op => some op
  | _ => none

def attribute? : Member → Option Attribute
  | .attribute attr => some attr
  | _ => none

def constructor? : Member → Option Constructor
  | constructor ctor => some ctor
  | _ => none

end Member

/-- Adds an operation to the set of its name, or starts one at the end. -/
def insertOperation (op : Operation) :
    List (String × List Operation) → List (String × List Operation)
  | [] => [(op.name, [op])]
  | (name, ops) :: sets =>
    if name = op.name then (name, ops ++ [op]) :: sets
    else (name, ops) :: insertOperation op sets

namespace Interface

def operations (i : Interface) : List Operation := i.members.filterMap Member.operation?

def attributes (i : Interface) : List Attribute := i.members.filterMap Member.attribute?

def constructors (i : Interface) : List Constructor := i.members.filterMap Member.constructor?

/-- Operations grouped by name. Sets stand in the order of their first operation, and operations of
a set in the order of the members. -/
def overloadSets (i : Interface) : List (String × List Operation) :=
  i.operations.foldl (fun sets op => insertOperation op sets) []

/-- The attributes whose object an instance keeps. A static attribute has no instance. -/
def cachedAttributes (i : Interface) : List Attribute :=
  i.attributes.filter fun a => a.isSameObject && !a.isStatic

/-- The slot of an instance for the attribute with a name. -/
def slot? (i : Interface) (name : String) : Option Nat :=
  i.cachedAttributes.findIdx? fun a => a.name == name

/-- How many slots an instance has. -/
def slotCount (i : Interface) : Nat := i.cachedAttributes.length

end Interface

def Dictionary.hasRequired (d : Dictionary) : Bool := d.fields.any Field.required

end IdlBindings
