import IdlBindings.Tree.Node
import IdlBindings.Tree.Record

/-!
# From JSON values to nodes

Each kind of node has its record of fields. The names of the records are those that diagnostics use.

## Main definitions

* `TypeNode.decode`, `MemberNode.decode`: nodes inside a definition
* `DefinitionTag.decode`: a definition whose tag is already known
-/
namespace IdlBindings

open Record

/-! ## Types and values -/

/-- A type that nests at most `n` deep. A value that was read from a text is never deeper than the
reader allows, so the bound is not felt. Whatever is wrong inside a body, the body as a whole is
reported. -/
def TypeNode.decodeWith : Nat → Decoder TypeNode
  | 0 => fun _ => .error .noTypeBody
  | n + 1 =>
    let body : Decoder TypeBody
      | .string name => .ok (.name name)
      | .array items =>
        match items.mapM (TypeNode.decodeWith n) with
        | .ok types => .ok (.params types)
        | .error _ => .error .noTypeBody
      | _ => .error .noTypeBody
    Record.decode "RawType" (TypeNode.mk
      <$> defaulted "generic" Decoder.string ""
      <*> defaulted "nullable" Decoder.bool false
      <*> defaulted "union" Decoder.bool false
      <*> mandatory "idlType" body)

def TypeNode.decode : Decoder TypeNode := TypeNode.decodeWith Json.maxDepth

def DefaultNode.decode : Decoder DefaultNode :=
  Record.decode "RawDefault" (DefaultNode.mk
    <$> mandatory "type" Decoder.string
    <*> defaulted "value" Decoder.free .null
    <*> defaulted "negative" (Decoder.nullable Decoder.bool) none)

def ArgumentNode.decode : Decoder ArgumentNode :=
  Record.decode "RawArgument" (ArgumentNode.mk
    <$> mandatory "name" Decoder.string
    <*> mandatory "idlType" TypeNode.decode
    <*> defaulted "optional" Decoder.bool false
    <*> defaulted "variadic" Decoder.bool false
    <*> defaulted "default" (Decoder.nullable DefaultNode.decode) none)

/-- The right-hand side is a node of its own, of which only the value counts. -/
def decodeRhs : Decoder Json.Value :=
  Record.decode "RawRhs" (defaulted "value" Decoder.free .null)

def ExtAttrNode.decode : Decoder ExtAttrNode :=
  Record.decode "RawExtAttr" (ExtAttrNode.mk
    <$> mandatory "name" Decoder.string
    <*> defaulted "rhs" (Decoder.nullable decodeRhs) none)

/-! ## Members -/

def extAttrsField : Record (List ExtAttrNode) :=
  defaulted "extAttrs" (Decoder.list ExtAttrNode.decode) []

def argumentsField : Record (List ArgumentNode) :=
  defaulted "arguments" (Decoder.list ArgumentNode.decode) []

def OperationNode.decode : Decoder OperationNode :=
  Record.decode "RawOperation" (OperationNode.mk
    <$> defaulted "name" Decoder.string ""
    <*> defaulted "idlType" (Decoder.nullable TypeNode.decode) none
    <*> argumentsField
    <*> defaulted "special" Decoder.string ""
    <*> extAttrsField)

def AttributeNode.decode : Decoder AttributeNode :=
  Record.decode "RawAttribute" (AttributeNode.mk
    <$> mandatory "name" Decoder.string
    <*> mandatory "idlType" TypeNode.decode
    <*> defaulted "readonly" Decoder.bool false
    <*> defaulted "special" Decoder.string ""
    <*> extAttrsField)

def ConstructorNode.decode : Decoder ConstructorNode :=
  Record.decode "RawConstructor" (ConstructorNode.mk <$> argumentsField <*> extAttrsField)

/-- The kinds of members. -/
inductive MemberTag where
  | operation | attribute | constructor | unbound

def MemberTag.all : List (String × MemberTag) :=
  [("operation", .operation), ("attribute", .attribute), ("constructor", .constructor),
    ("const", .unbound), ("iterable", .unbound), ("async iterable", .unbound),
    ("maplike", .unbound), ("setlike", .unbound)]

def MemberNode.decode : Decoder MemberNode := fun v => do
  let (tag, fields) ← splitTag "RawMember" MemberTag.all v
  match tag with
  | .operation => return .operation (← OperationNode.decode fields)
  | .attribute => return .attribute (← AttributeNode.decode fields)
  | .constructor => return .constructor (← ConstructorNode.decode fields)
  | .unbound =>
    noFields fields
    return .unbound

/-! ## Definitions -/

def FieldNode.decode : Decoder FieldNode :=
  Record.decode "RawField" (FieldNode.mk
    <$> mandatory "name" Decoder.string
    <*> mandatory "idlType" TypeNode.decode
    <*> defaulted "required" Decoder.bool false
    <*> defaulted "default" (Decoder.nullable DefaultNode.decode) none)

def ContainerNode.decode {μ : Type} (member : Decoder μ) : Decoder (ContainerNode μ) :=
  Record.decode "RawContainer" (ContainerNode.mk
    <$> mandatory "name" Decoder.string
    <*> defaulted "partial" Decoder.bool false
    <*> defaulted "inheritance" (Decoder.nullable Decoder.string) none
    <*> defaulted "members" (Decoder.list member) []
    <*> extAttrsField)

def decodeEnumValue : Decoder String :=
  Record.decode "RawEnumValue" (mandatory "value" Decoder.string)

def EnumNode.decode : Decoder EnumNode :=
  Record.decode "RawEnum" (EnumNode.mk
    <$> mandatory "name" Decoder.string
    <*> mandatory "values" (Decoder.list decodeEnumValue))

def TypedefNode.decode : Decoder TypedefNode :=
  Record.decode "RawTypedef" (TypedefNode.mk
    <$> mandatory "name" Decoder.string
    <*> mandatory "idlType" TypeNode.decode)

def IncludesNode.decode : Decoder IncludesNode :=
  Record.decode "RawIncludes" (IncludesNode.mk
    <$> mandatory "target" Decoder.string
    <*> mandatory "includes" Decoder.string)

/-- The kinds of definitions. -/
inductive DefinitionTag where
  | interface | mixin | dictionary | enumeration | typedef | includes | endOfFile

namespace DefinitionTag

def all : List (String × DefinitionTag) :=
  [("interface", interface), ("interface mixin", mixin), ("dictionary", dictionary),
    ("enum", enumeration), ("typedef", typedef), ("includes", includes), ("eof", endOfFile)]

/-- A definition of a known kind from its other fields. -/
def decode : DefinitionTag → Decoder DefinitionNode
  | interface => fun v => do return .interface (← ContainerNode.decode MemberNode.decode v)
  | mixin => fun v => do return .mixin (← ContainerNode.decode MemberNode.decode v)
  | dictionary => fun v => do return .dictionary (← ContainerNode.decode FieldNode.decode v)
  | enumeration => fun v => do return .enumeration (← EnumNode.decode v)
  | typedef => fun v => do return .typedef (← TypedefNode.decode v)
  | includes => fun v => do return .includes (← IncludesNode.decode v)
  | endOfFile => fun v => do
    noFields v
    return .endOfFile

end DefinitionTag

end IdlBindings
