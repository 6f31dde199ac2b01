import IdlBindings.Json.Value

/-!
# Nodes of a syntax tree

The nodes of a document that was parsed elsewhere and written as JSON, with the fields that matter
here. Fields that may be left out have their usual value filled in.

## Main definitions

* `TypeNode`: a type
* `MemberNode`: a member of an interface or mixin
* `DefinitionNode`: a top-level definition, or the mark for the end of the file
-/
namespace IdlBindings

mutual

/-- A type. Its body is a name or a list of parameters; the latter are those of a union or of the
wrapper that `generic` names. -/
inductive TypeNode where
  | mk (generic : String) (nullable : Bool) (union : Bool) (body : TypeBody)

inductive TypeBody where
  | name (text : String)
  | params (types : List TypeNode)

end

/-- A default value, told by its kind. -/
structure DefaultNode where
  kind : String
  value : Json.Value
  negative : Option Bool

structure ArgumentNode where
  name : String
  type : TypeNode
  optional : Bool
  variadic : Bool
  default : Option DefaultNode

/-- An extended attribute, with the value of its right-hand side if it has one. -/
structure ExtAttrNode where
  name : String
  rhs : Option Json.Value

structure OperationNode where
  name : String
  type : Option TypeNode
  arguments : List ArgumentNode
  special : String
  extAttrs : List ExtAttrNode

structure AttributeNode where
  name : String
  type : TypeNode
  readonly : Bool
  special : String
  extAttrs : List ExtAttrNode

structure ConstructorNode where
  arguments : List ArgumentNode
  extAttrs : List ExtAttrNode

inductive MemberNode where
  | operation (node : OperationNode)
  | attribute (node : AttributeNode)
  | constructor (node : ConstructorNode)
  /-- A member of a kind that gets no bindings. -/
  | unbound

structure FieldNode where
  name : String
  type : TypeNode
  required : Bool
  default : Option DefaultNode

/-- An interface, mixin or dictionary, with members of kind `μ`. -/
structure ContainerNode (μ : Type) where
  name : String
  isPartial : Bool
  parent : Option String
  members : List μ
  extAttrs : List ExtAttrNode

structure EnumNode where
  name : String
  values : List String

structure TypedefNode where
  name : String
  type : TypeNode

structure IncludesNode where
  target : String
  mixin : String

inductive DefinitionNode where
  | interface (node : ContainerNode MemberNode)
  | mixin (node : ContainerNode MemberNode)
  | dictionary (node : ContainerNode FieldNode)
  | enumeration (node : EnumNode)
  | typedef (node : TypedefNode)
  | includes (node : IncludesNode)
  | endOfFile

end IdlBindings
