import IdlBindings.Definition
import IdlBindings.Tree.Reader

/-!
# From syntax trees to definitions

A tree says in nodes what a text says in words. Nodes that have no bindings are left out, as the
members that a text skips are.

## Main definitions

* `TypeNode.toType`: the type a node describes
* `DefaultNode.text`: a default value as it would be written
* `DefinitionNode.toDefinition?`: the definition a node describes, if any
* `Definition.listOfTree`: the definitions of the text of a tree
-/
namespace IdlBindings

/-! ## Types and values -/

namespace TypeNode

mutual

/-- The type a node describes. Only a wrapper with a name and exactly one parameter keeps its
structure; all else is carried by its text. -/
def toType : TypeNode → IdlType
  | ⟨generic, nullable, union, body⟩ =>
    let t := match body with
      | .name text => .named text
      | .params types =>
        let params := toTypes types
        if union then IdlType.union params
        else
          match params with
          | [inner] =>
            if generic.isEmpty then IdlType.manyParams generic params else .generic generic inner
          | _ => IdlType.manyParams generic params
    if nullable then t.nullable else t

def toTypes : List TypeNode → List IdlType
  | [] => []
  | node :: nodes => node.toType :: toTypes nodes

end

end TypeNode

/-- A default value as it would be written. Text is put in quotes without escapes; a value of an
unknown kind is written as JSON, or as it is if it is text. -/
def DefaultNode.text (d : DefaultNode) : String :=
  match d.kind with
  | "string" =>
    match d.value with
    | .string s => "\"" ++ s ++ "\""
    | _ => "\"\""
  | "sequence" => "[]"
  | "dictionary" => "\x7b\x7d"
  | "null" => "null"
  | "Infinity" => if d.negative = some true then "-Infinity" else "Infinity"
  | "NaN" => "NaN"
  | _ =>
    match d.value with
    | .string s => s
    | v => v.compact

mutual

/-- The text of a right-hand side: a word as it is, a list in parentheses. -/
def rhsText : Json.Value → String
  | .string s => s
  | .array items => "(" ++ String.intercalate "," (rhsItems items) ++ ")"
  | v => v.compact

/-- The items of a list are nodes of which the value counts, or plain values. -/
def rhsItems : List Json.Value → List String
  | [] => []
  | .object entries :: items =>
    (rhsEntry entries).getD (Json.Value.object entries).compact :: rhsItems items
  | item :: items => rhsText item :: rhsItems items

/-- The text of the last entry called `value`. -/
def rhsEntry : List (String × Json.Value) → Option String
  | [] => none
  | (name, v) :: entries =>
    match rhsEntry entries with
    | some text => some text
    | none => if name = "value" then some (rhsText v) else none

end

def ExtAttrNode.toExtAttr (node : ExtAttrNode) : ExtAttr := ⟨node.name, node.rhs.map rhsText⟩

def ArgumentNode.toArgument (node : ArgumentNode) : Argument :=
  ⟨node.name, node.type.toType, node.optional || node.variadic, node.variadic,
    node.default.map DefaultNode.text⟩

def FieldNode.toField (node : FieldNode) : Field :=
  ⟨node.name, node.type.toType, node.required, node.default.map DefaultNode.text⟩

/-! ## Members -/

/-- The words for a member that get bindings: none, and the one for a static member. -/
def isBoundSpecial (word : String) : Bool := word == "" || word == "static"

/-- Operations without a name, and members with another special word, get no bindings. -/
def MemberNode.toMember? : MemberNode → Option Member
  | .operation node =>
    if node.name.isEmpty || !isBoundSpecial node.special then none
    else
      some (.operation {
        name := node.name
        arguments := node.arguments.map ArgumentNode.toArgument
        result := (node.type.map TypeNode.toType).filter fun t => !t.isUndefined
        isStatic := node.special == "static"
        extAttrs := node.extAttrs.map ExtAttrNode.toExtAttr })
  | .attribute node =>
    if !isBoundSpecial node.special then none
    else
      some (.attribute {
        name := node.name
        type := node.type.toType
        readonly := node.readonly
        isStatic := node.special == "static"
        extAttrs := node.extAttrs.map ExtAttrNode.toExtAttr })
  | .constructor node =>
    some (.constructor ⟨node.arguments.map ArgumentNode.toArgument,
      node.extAttrs.map ExtAttrNode.toExtAttr⟩)
  | .unbound => none

/-! ## Definitions -/

/-- The mark for the end of the file is no definition. -/
def DefinitionNode.toDefinition? : DefinitionNode → Option Definition
  | .interface node =>
    some (.interface ⟨node.name, node.isPartial, node.parent,
      node.members.filterMap MemberNode.toMember?, node.extAttrs.map ExtAttrNode.toExtAttr⟩)
  | .mixin node =>
    some (.mixin ⟨node.name, node.isPartial, node.members.filterMap MemberNode.toMember?⟩)
  | .dictionary node =>
    some (.dictionary ⟨node.name, node.isPartial, node.parent, node.members.map FieldNode.toField⟩)
  | .enumeration node => some (.enumeration ⟨node.name, node.values⟩)
  | .typedef node => some (.typedef ⟨node.name, node.type.toType⟩)
  | .includes node => some (.includes ⟨node.target, node.mixin⟩)
  | .endOfFile => none

/-- The definitions that a list of nodes describes. -/
def Definition.listOfNodes (nodes : List DefinitionNode) : List Definition :=
  nodes.filterMap DefinitionNode.toDefinition?

/-- The definitions of the text of a tree. -/
def Definition.listOfTree (source : String) : Except TreeFault (List Definition) :=
  (DefinitionNode.listOfText source).map Definition.listOfNodes

end IdlBindings
