import IdlBindings.Definition.Parser
import IdlBindings.Proofs.Token.Layout
import IdlBindings.Tree.Definition

/-!
# Forms of definitions

A definition can be written as a text and as a syntax tree. A form is what both have in common: it
knows the structure of types that a definition only keeps as text, and it is made of names, words
and literals that can be written, so every form has tokens as well as nodes.

Declared names are escaped by an underscore, so that none is taken for a keyword. A name that only
refers to something may be escaped or not.

## Main definitions

* `TypeForm`, `DefaultForm`, `ExtAttrForm`, `ArgumentForm`, `MemberForm`, `FieldForm`,
  `DefinitionForm`: the forms, each with its `tokens`, its `node` and what they stand for
-/
namespace IdlBindings

/-! ## Names and words -/

def isPlainName (text : String) : Bool :=
  match text.toList with
  | [] => false
  | c :: cs => c.isAlpha && cs.all isIdentPart

/-- A name that starts with a letter. -/
structure PlainName where
  text : String
  isPlainName_text : isPlainName text = true

namespace PlainName

/-- The name with an underscore, which is no part of it. -/
def escaped (n : PlainName) : TokenKind := .ident ("_" ++ n.text)

end PlainName

/-- A name in a place where no keyword is expected. -/
structure Reference where
  name : PlainName
  isEscaped : Bool

def Reference.token (r : Reference) : TokenKind :=
  if r.isEscaped then r.name.escaped else .ident r.name.text

def Reference.text (r : Reference) : String := r.name.text

abbrev Word := { text : String // isIdentifier text = true }

abbrev Numeral := { digits : String // isNumber digits = true }

abbrev QuotedText := { value : String // isQuotable value = true }

/-! ## Types -/

/-- The words that do not start a type everywhere. -/
def reservedWords : List String :=
  Member.skippedKeywords ++
    ["constructor", "static", "readonly", "attribute", "optional", "required"]

/-- The name of a type. Only the words for kinds of numbers are followed by words for a size. -/
structure TypeName where
  word : Word
  sizes : List String
  word_notMem : word.val ∉ reservedWords
  isSizeWord_sizes : ∀ size ∈ sizes, IdlType.isSizeWord size = true
  takesSizeWords_word : sizes ≠ [] → IdlType.takesSizeWords word.val = true

namespace TypeName

def text (n : TypeName) : String := n.sizes.foldl (fun text size => text ++ " " ++ size) n.word.val

def tokens (n : TypeName) : List TokenKind := .ident n.word.val :: n.sizes.map .ident

end TypeName

mutual

/-- A type, which may be nullable. -/
inductive TypeForm where
  | name (n : TypeName) (nullable : Bool)
  | generic (n : TypeName) (params : TypeForms) (nullable : Bool)
  | union (parts : TypeForms) (nullable : Bool)

/-- One or more types. -/
inductive TypeForms where
  | one (t : TypeForm)
  | cons (t : TypeForm) (ts : TypeForms)

end

/-- The type of a wrapper. It is only a tree with a single parameter. -/
def IdlType.wrap (wrapper : String) : List IdlType → IdlType
  | [inner] => .generic wrapper inner
  | params => .manyParams wrapper params

/-- The type, or the type or null. -/
def IdlType.nullableIf (nullable : Bool) (t : IdlType) : IdlType :=
  if nullable then t.nullable else t

def questionTokens (nullable : Bool) : List TokenKind :=
  if nullable then [.punct .question] else []

mutual

def TypeForm.type : TypeForm → IdlType
  | .name n nullable => (IdlType.named n.text).nullableIf nullable
  | .generic n params nullable => (IdlType.wrap n.text params.types).nullableIf nullable
  | .union parts nullable => (IdlType.union parts.types).nullableIf nullable

def TypeForms.types : TypeForms → List IdlType
  | .one t => [t.type]
  | .cons t ts => t.type :: ts.types

end

mutual

def TypeForm.tokens : TypeForm → List TokenKind
  | .name n nullable => n.tokens ++ questionTokens nullable
  | .generic n params nullable =>
    n.tokens ++ .punct .openAngle :: params.tokens (.punct .comma) ++
      .punct .closeAngle :: questionTokens nullable
  | .union parts nullable =>
    .punct .openParen :: parts.tokens (.ident "or") ++ .punct .closeParen :: questionTokens nullable

/-- The types with a separator between them. -/
def TypeForms.tokens (separator : TokenKind) : TypeForms → List TokenKind
  | .one t => t.tokens
  | .cons t ts => t.tokens ++ separator :: ts.tokens separator

end

mutual

def TypeForm.node : TypeForm → TypeNode
  | .name n nullable => ⟨"", nullable, false, .name n.text⟩
  | .generic n params nullable => ⟨n.text, nullable, false, .params params.nodes⟩
  | .union parts nullable => ⟨"", nullable, true, .params parts.nodes⟩

def TypeForms.nodes : TypeForms → List TypeNode
  | .one t => [t.node]
  | .cons t ts => t.node :: ts.nodes

end

/-! ## Default values -/

inductive DefaultForm where
  | text (value : QuotedText)
  | number (digits : Numeral)
  /-- A word, such as `true`, `null`, `NaN` or `Infinity`. -/
  | word (w : Word)
  | negativeInfinity
  | emptyList
  | emptyDictionary

namespace DefaultForm

def value : DefaultForm → String
  | text value => "\"" ++ value.val ++ "\""
  | number digits => digits.val
  | word w => w.val
  | negativeInfinity => "-Infinity"
  | emptyList => "[]"
  | emptyDictionary => "\x7b\x7d"

def tokens : DefaultForm → List TokenKind
  | text value => [.text value.val]
  | number digits => [.number digits.val]
  | word w => [.ident w.val]
  | negativeInfinity => [.punct .minus, .ident "Infinity"]
  | emptyList => [.punct .openBracket, .punct .closeBracket]
  | emptyDictionary => [.punct .openBrace, .punct .closeBrace]

/-- The node of a word. Some words are values of a kind of their own. -/
def wordNode (w : String) : DefaultNode :=
  if w = "true" then ⟨"boolean", .bool true, none⟩
  else if w = "false" then ⟨"boolean", .bool false, none⟩
  else if w = "null" then ⟨"null", .null, none⟩
  else if w = "NaN" then ⟨"NaN", .null, none⟩
  else if w = "Infinity" then ⟨"Infinity", .null, some false⟩
  else ⟨"identifier", .string w, none⟩

def node : DefaultForm → DefaultNode
  | text value => ⟨"string", .string value.val, none⟩
  | number digits => ⟨"number", .string digits.val, none⟩
  | word w => wordNode w.val
  | negativeInfinity => ⟨"Infinity", .null, some true⟩
  | emptyList => ⟨"sequence", .array [], none⟩
  | emptyDictionary => ⟨"dictionary", .null, none⟩

end DefaultForm

/-- A default value after its sign, if there is one. -/
def defaultTokens : Option DefaultForm → List TokenKind
  | none => []
  | some d => .punct .equals :: d.tokens

/-! ## Extended attributes -/

/-- The right-hand side of an extended attribute. -/
inductive RhsForm where
  | word (w : Word)
  | words (ws : List Word)

namespace RhsForm

def value : RhsForm → String
  | word w => w.val
  | words ws => "(" ++ String.intercalate "," (ws.map Subtype.val) ++ ")"

/-- Words with commas between them. -/
def wordTokens : List Word → List TokenKind
  | [] => []
  | [w] => [.ident w.val]
  | w :: ws => .ident w.val :: .punct .comma :: wordTokens ws

def tokens : RhsForm → List TokenKind
  | word w => [.ident w.val]
  | words ws => .punct .openParen :: wordTokens ws ++ [.punct .closeParen]

def node : RhsForm → Json.Value
  | word w => .string w.val
  | words ws => .array (ws.map fun w => .object [("value", .string w.val)])

end RhsForm

structure ExtAttrForm where
  name : Reference
  rhs : Option RhsForm

namespace ExtAttrForm

def extAttr (e : ExtAttrForm) : ExtAttr := ⟨e.name.text, e.rhs.map RhsForm.value⟩

def tokens (e : ExtAttrForm) : List TokenKind :=
  e.name.token :: match e.rhs with
    | none => []
    | some rhs => .punct .equals :: rhs.tokens

def node (e : ExtAttrForm) : ExtAttrNode := ⟨e.name.text, e.rhs.map RhsForm.node⟩

/-- Extended attributes in brackets, if there are any. -/
def listTokens : List ExtAttrForm → List TokenKind
  | [] => []
  | e :: es =>
    .punct .openBracket :: e.tokens ++ (es.flatMap fun e => .punct .comma :: e.tokens) ++
      [.punct .closeBracket]

end ExtAttrForm

/-! ## Members -/

/-- An argument. Only one that may be left out has a default value, and only one. -/
inductive ArgumentForm where
  | required (type : TypeForm) (name : PlainName)
  | optional (type : TypeForm) (name : PlainName) (default : Option DefaultForm)
  | variadic (type : TypeForm) (name : PlainName)

namespace ArgumentForm

def argument : ArgumentForm → Argument
  | required type name => ⟨name.text, type.type, false, false, none⟩
  | optional type name default => ⟨name.text, type.type, true, false, default.map DefaultForm.value⟩
  | variadic type name => ⟨name.text, type.type, true, true, none⟩

def tokens : ArgumentForm → List TokenKind
  | required type name => type.tokens ++ [name.escaped]
  | optional type name default =>
    .ident "optional" :: type.tokens ++ name.escaped :: defaultTokens default
  | variadic type name => type.tokens ++ [.ellipsis, name.escaped]

def node : ArgumentForm → ArgumentNode
  | required type name => ⟨name.text, type.node, false, false, none⟩
  | optional type name default => ⟨name.text, type.node, true, false, default.map DefaultForm.node⟩
  | variadic type name => ⟨name.text, type.node, false, true, none⟩

/-- Arguments in parentheses. -/
def listTokens : List ArgumentForm → List TokenKind
  | [] => [.punct .openParen, .punct .closeParen]
  | a :: as =>
    .punct .openParen :: a.tokens ++ (as.flatMap fun a => .punct .comma :: a.tokens) ++
      [.punct .closeParen]

end ArgumentForm

/-- The type of a result that is a value. -/
abbrev ResultForm := { type : TypeForm // type.type.isUndefined = false }

theorem isSizeWord_of_mem_nil : ∀ size ∈ ([] : List String), IdlType.isSizeWord size = true := by
  simp

/-- The type that stands for no result. -/
def undefinedName : TypeName where
  word := ⟨"undefined", by decide⟩
  sizes := []
  word_notMem := by decide
  isSizeWord_sizes := isSizeWord_of_mem_nil
  takesSizeWords_word := by simp

/-- The type that an operation is written with. -/
def resultType : Option ResultForm → TypeForm
  | none => .name undefinedName false
  | some result => result.val

inductive MemberForm where
  | operation (isStatic : Bool) (result : Option ResultForm) (name : PlainName)
      (arguments : List ArgumentForm) (extAttrs : List ExtAttrForm)
  | attribute (isStatic readonly : Bool) (type : TypeForm) (name : PlainName)
      (extAttrs : List ExtAttrForm)
  | constructor (arguments : List ArgumentForm) (extAttrs : List ExtAttrForm)

/-- A keyword that is there or not. -/
def keywordIf (present : Bool) (word : String) : List TokenKind :=
  if present then [.ident word] else []

namespace MemberForm

def member : MemberForm → Member
  | operation isStatic result name arguments extAttrs =>
    .operation ⟨name.text, arguments.map ArgumentForm.argument,
      result.map fun type => type.val.type, isStatic, extAttrs.map ExtAttrForm.extAttr⟩
  | .attribute isStatic readonly type name extAttrs =>
    .attribute ⟨name.text, type.type, readonly, isStatic, extAttrs.map ExtAttrForm.extAttr⟩
  | constructor arguments extAttrs =>
    .constructor ⟨arguments.map ArgumentForm.argument, extAttrs.map ExtAttrForm.extAttr⟩

def tokens : MemberForm → List TokenKind
  | operation isStatic result name arguments extAttrs =>
    ExtAttrForm.listTokens extAttrs ++ keywordIf isStatic "static" ++ (resultType result).tokens ++
      name.escaped :: ArgumentForm.listTokens arguments ++ [.punct .semicolon]
  | .attribute isStatic readonly type name extAttrs =>
    ExtAttrForm.listTokens extAttrs ++ keywordIf isStatic "static" ++
      keywordIf readonly "readonly" ++ .ident "attribute" :: type.tokens ++
      [name.escaped, .punct .semicolon]
  | constructor arguments extAttrs =>
    ExtAttrForm.listTokens extAttrs ++ .ident "constructor" :: ArgumentForm.listTokens arguments ++
      [.punct .semicolon]

/-- The special word of a node. -/
def special (isStatic : Bool) : String := if isStatic then "static" else ""

def node : MemberForm → MemberNode
  | operation isStatic result name arguments extAttrs =>
    .operation ⟨name.text, some (resultType result).node, arguments.map ArgumentForm.node,
      special isStatic, extAttrs.map ExtAttrForm.node⟩
  | .attribute isStatic readonly type name extAttrs =>
    .attribute ⟨name.text, type.node, readonly, special isStatic, extAttrs.map ExtAttrForm.node⟩
  | constructor arguments extAttrs =>
    .constructor ⟨arguments.map ArgumentForm.node, extAttrs.map ExtAttrForm.node⟩

end MemberForm

structure FieldForm where
  name : PlainName
  type : TypeForm
  required : Bool
  default : Option DefaultForm

namespace FieldForm

def field (f : FieldForm) : Field :=
  ⟨f.name.text, f.type.type, f.required, f.default.map DefaultForm.value⟩

def tokens (f : FieldForm) : List TokenKind :=
  keywordIf f.required "required" ++ f.type.tokens ++ f.name.escaped :: defaultTokens f.default ++
    [.punct .semicolon]

def node (f : FieldForm) : FieldNode :=
  ⟨f.name.text, f.type.node, f.required, f.default.map DefaultForm.node⟩

end FieldForm

/-! ## Definitions -/

inductive DefinitionForm where
  | interface (name : PlainName) (isPartial : Bool) (parent : Option Reference)
      (members : List MemberForm) (extAttrs : List ExtAttrForm)
  | mixin (name : PlainName) (isPartial : Bool) (members : List MemberForm)
  | dictionary (name : PlainName) (isPartial : Bool) (parent : Option Reference)
      (fields : List FieldForm)
  | enumeration (name : PlainName) (first : QuotedText) (others : List QuotedText)
  | typedef (name : PlainName) (type : TypeForm)
  | includes (target : PlainName) (included : Reference)

/-- The name after a colon, if there is one. -/
def parentTokens : Option Reference → List TokenKind
  | none => []
  | some parent => [.punct .colon, parent.token]

/-- Items in braces. -/
def bodyTokens {α : Type} (tokens : α → List TokenKind) (items : List α) : List TokenKind :=
  .punct .openBrace :: items.flatMap tokens ++ [.punct .closeBrace]

namespace DefinitionForm

def definition : DefinitionForm → Definition
  | interface name isPartial parent members extAttrs =>
    .interface ⟨name.text, isPartial, parent.map Reference.text, members.map MemberForm.member,
      extAttrs.map ExtAttrForm.extAttr⟩
  | mixin name isPartial members => .mixin ⟨name.text, isPartial, members.map MemberForm.member⟩
  | dictionary name isPartial parent fields =>
    .dictionary ⟨name.text, isPartial, parent.map Reference.text, fields.map FieldForm.field⟩
  | enumeration name first others =>
    .enumeration ⟨name.text, first.val :: others.map Subtype.val⟩
  | typedef name type => .typedef ⟨name.text, type.type⟩
  | includes target included => .includes ⟨target.text, included.text⟩

/-- The tokens without the final semicolon. -/
def headTokens : DefinitionForm → List TokenKind
  | interface name isPartial parent members extAttrs =>
    ExtAttrForm.listTokens extAttrs ++ keywordIf isPartial "partial" ++
      .ident "interface" :: name.escaped :: parentTokens parent ++
      bodyTokens MemberForm.tokens members
  | mixin name isPartial members =>
    keywordIf isPartial "partial" ++ .ident "interface" :: .ident "mixin" :: name.escaped ::
      bodyTokens MemberForm.tokens members
  | dictionary name isPartial parent fields =>
    keywordIf isPartial "partial" ++ .ident "dictionary" :: name.escaped :: parentTokens parent ++
      bodyTokens FieldForm.tokens fields
  | enumeration name first others =>
    .ident "enum" :: name.escaped :: .punct .openBrace :: .text first.val ::
      (others.flatMap fun v => [.punct .comma, .text v.val]) ++ [.punct .closeBrace]
  | typedef name type => .ident "typedef" :: type.tokens ++ [name.escaped]
  | includes target included => [target.escaped, .ident "includes", included.token]

def tokens (d : DefinitionForm) : List TokenKind := d.headTokens ++ [.punct .semicolon]

def node : DefinitionForm → DefinitionNode
  | interface name isPartial parent members extAttrs =>
    .interface ⟨name.text, isPartial, parent.map Reference.text, members.map MemberForm.node,
      extAttrs.map ExtAttrForm.node⟩
  | mixin name isPartial members =>
    .mixin ⟨name.text, isPartial, none, members.map MemberForm.node, []⟩
  | dictionary name isPartial parent fields =>
    .dictionary ⟨name.text, isPartial, parent.map Reference.text, fields.map FieldForm.node, []⟩
  | enumeration name first others => .enumeration ⟨name.text, first.val :: others.map Subtype.val⟩
  | typedef name type => .typedef ⟨name.text, type.node⟩
  | includes target included => .includes ⟨target.text, included.text⟩

end DefinitionForm
end IdlBindings
