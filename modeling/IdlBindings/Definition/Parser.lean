import IdlBindings.Definition
import IdlBindings.Token.Parser

/-!
# Reading a document from text

A predictive parser for the supported subset of the interface definition language. Members that get
no bindings are skipped up to their semicolon; definitions that get none are rejected.

## Main definitions

* `IdlType.parse`: a type reference
* `Member.parse`: a member of an interface or mixin, or none for one that is skipped
* `Definition.parse`: one definition with its final semicolon
* `Definition.listOfText`: the definitions of a whole text
-/
namespace IdlBindings

open IdlBindings.Parser

/-! ## Extended attributes -/

namespace ExtAttr

/-- The tokens of a right-hand side, up to a comma or closing bracket that stands outside
parentheses; none when the input ends first. Closing parentheses without partner are ignored. -/
def valueTokens : Nat → List Token → Option (List TokenKind × List Token)
  | _, [] => none
  | depth, t :: ts =>
    if depth = 0 ∧ (t.kind = .punct .comma ∨ t.kind = .punct .closeBracket) then some ([], t :: ts)
    else
      let inner := match t.kind with
        | .punct .openParen => depth + 1
        | .punct .closeParen => depth - 1
        | _ => depth
      (valueTokens inner ts).map fun (kinds, rest) => (t.kind :: kinds, rest)

/-- Two words that would run together are set apart by a space; all else is joined directly. -/
def appendToken (text : String) (kind : TokenKind) : String :=
  let apart := match text.toList.getLast? with
    | some c => c.isAlphanum
    | none => false
  match kind with
  | .ident word | .number word => if apart then text ++ " " ++ word else text ++ word
  | other => text ++ String.ofList other.spelling

/-- The right-hand side of an extended attribute, as text. -/
def parseValue : Parser String := fun s =>
  match valueTokens 0 s.tokens with
  | some (kinds, rest) => .ok (kinds.foldl appendToken "", { s with tokens := rest })
  | none => .error ⟨.unfinishedExtAttr, s.stop⟩

def parseOne : Parser ExtAttr := do
  let name ← expectIdent
  if ← eatPunct .equals then
    return ⟨name, some (← parseValue)⟩
  else if (← peek) = some (.punct .openParen) then
    return ⟨name, some (← parseValue)⟩
  else
    return ⟨name, none⟩

/-- The extended attributes in brackets, if there are any. -/
def parseList : Parser (List ExtAttr) := do
  if ← eatPunct .openBracket then
    let attrs ← commaSeparated parseOne (← remaining)
    expectPunct .closeBracket
    return attrs
  else
    return []

end ExtAttr

/-! ## Types -/

namespace IdlType

/-- Words that the words for number sizes may follow. -/
def takesSizeWords (word : String) : Bool :=
  word == "unsigned" || word == "unrestricted" || word == "long"

def isSizeWord (word : String) : Bool :=
  word == "short" || word == "long" || word == "float" || word == "double"

/-- The longest run of words for number sizes at the front. -/
def sizeWords : List Token → List String × List Token
  | [] => ([], [])
  | t :: ts =>
    match t.kind with
    | .ident word =>
      if isSizeWord word then
        let (words, rest) := sizeWords ts
        (word :: words, rest)
      else ([], t :: ts)
    | _ => ([], t :: ts)

/-- The name of a type that starts with `word`, with all the size words that follow. -/
def parseName (word : String) : Parser String := fun s =>
  if takesSizeWords word then
    let (words, rest) := sizeWords s.tokens
    .ok (words.foldl (fun name size => name ++ " " ++ size) word, { s with tokens := rest })
  else .ok (word, s)

mutual

/-- A type, with at most `n` tokens to come. Extended attributes of a type are read and dropped. -/
def parseWith : Nat → Parser IdlType
  | 0 => do fail (.expectedType (← peek))
  | n + 1 => do
    let _ ← ExtAttr.parseList
    if ← eatPunct .openParen then
      let first ← parseWith n
      let others ← parseMore (.ident "or") n
      expectPunct .closeParen
      let t := union (first :: others)
      if ← eatPunct .question then return t.nullable else return t
    else
      match ← advance with
      | some (.ident word) =>
        let name ← parseName word
        let t ← do
          if ← eatPunct .openAngle then
            let first ← parseWith n
            let others ← parseMore (.punct .comma) n
            expectPunct .closeAngle
            if others.isEmpty then pure (generic name first)
            else pure (manyParams name (first :: others))
          else pure (named name)
        if ← eatPunct .question then return t.nullable else return t
      | found => fail (.expectedType found)

/-- Further types, each after a separator. -/
def parseMore (separator : TokenKind) : Nat → Parser (List IdlType)
  | 0 => return []
  | n + 1 => do
    if ← eat separator then
      let first ← parseWith n
      return first :: (← parseMore separator n)
    else
      return []

end

/-- A type reference. -/
def parse : Parser IdlType := do parseWith (← remaining)

end IdlType

/-! ## Values and arguments -/

/-- A default value, as it is written. -/
def parseDefault : Parser String := do
  match ← advance with
  | some (.text value) => return "\"" ++ value ++ "\""
  | some (.number digits) => return digits
  | some (.ident word) => return word
  | some (.punct .minus) =>
    match ← advance with
    | some (.ident word) => return "-" ++ word
    | found => fail (.expectedDefault found)
  | some (.punct .openBracket) =>
    expectPunct .closeBracket
    return "[]"
  | some (.punct .openBrace) =>
    expectPunct .closeBrace
    return "\x7b\x7d"
  | found => fail (.expectedDefault found)

/-- A default value may only follow an argument that is marked optional. -/
def Argument.parse : Parser Argument := do
  let _ ← ExtAttr.parseList
  let optional ← eatKeyword "optional"
  let type ← IdlType.parse
  let variadic ← eat .ellipsis
  let name ← expectIdent
  let default ← do
    if optional then
      if ← eatPunct .equals then some <$> parseDefault else pure none
    else pure none
  return ⟨name, type, optional || variadic, variadic, default⟩

/-- The arguments in parentheses. -/
def Argument.parseList : Parser (List Argument) := do
  expectPunct .openParen
  if ← eatPunct .closeParen then
    return []
  else
    let arguments ← commaSeparated Argument.parse (← remaining)
    expectPunct .closeParen
    return arguments

/-! ## Members -/

namespace Member

/-- The words that start a member without bindings. -/
def skippedKeywords : List String :=
  ["const", "stringifier", "iterable", "async", "maplike", "setlike", "getter", "setter", "deleter",
    "inherit"]

/-- What follows the semicolon that ends a skipped member. Brackets of all four shapes share one
depth, and a closing one without partner is ignored. -/
def skip : Nat → List Token → Option (List Token)
  | _, [] => none
  | depth, t :: ts =>
    match t.kind with
    | .punct .openParen | .punct .openBrace | .punct .openBracket | .punct .openAngle =>
      skip (depth + 1) ts
    | .punct .closeParen | .punct .closeBrace | .punct .closeBracket | .punct .closeAngle =>
      skip (depth - 1) ts
    | .punct .semicolon => if depth = 0 then some ts else skip depth ts
    | _ => skip depth ts

def parseSkipped : Parser Unit := fun s =>
  match skip 0 s.tokens with
  | some rest => .ok ((), { s with tokens := rest })
  | none => .error ⟨.unfinishedMember, s.stop⟩

def parseConstructor (extAttrs : List ExtAttr) : Parser Member := do
  let arguments ← Argument.parseList
  expectPunct .semicolon
  return .constructor ⟨arguments, extAttrs⟩

/-- The type and name of an attribute; the word for it is already read. -/
def parseAttribute (isStatic readonly : Bool) (extAttrs : List ExtAttr) : Parser Member := do
  let type ← IdlType.parse
  let name ← expectIdent
  expectPunct .semicolon
  return .attribute ⟨name, type, readonly, isStatic, extAttrs⟩

def parseOperation (isStatic : Bool) (extAttrs : List ExtAttr) : Parser Member := do
  let type ← IdlType.parse
  match ← peek with
  | some (.ident _) =>
    let name ← expectIdent
    let arguments ← Argument.parseList
    expectPunct .semicolon
    let result := if type.isUndefined then none else some type
    return .operation ⟨name, arguments, result, isStatic, extAttrs⟩
  | _ => fail .anonymousOperation

def parseStaticOrPlain (extAttrs : List ExtAttr) : Parser Member := do
  let isStatic ← eatKeyword "static"
  let readonly ← eatKeyword "readonly"
  if ← eatKeyword "attribute" then
    parseAttribute isStatic readonly extAttrs
  else if readonly then
    fail .expectedAttribute
  else
    parseOperation isStatic extAttrs

/-- The next token is a word that starts a member without bindings. -/
def startsSkipped : Option TokenKind → Bool
  | some (.ident word) => skippedKeywords.contains word
  | _ => false

/-- A member with its extended attributes, or none for one that is skipped. -/
def parse : Parser (Option Member) := do
  let extAttrs ← ExtAttr.parseList
  if startsSkipped (← peek) then
    parseSkipped
    return none
  else if ← eatKeyword "constructor" then
    some <$> parseConstructor extAttrs
  else
    some <$> parseStaticOrPlain extAttrs

/-- The members in braces. -/
def parseBody : Parser (List Member) := do
  expectPunct .openBrace
  untilBrace parse (← remaining)

end Member

/-- A dictionary member. Extended attributes may stand before and after the word for a required
member. -/
def Field.parse : Parser Field := do
  let _ ← ExtAttr.parseList
  let required ← eatKeyword "required"
  let _ ← ExtAttr.parseList
  let type ← IdlType.parse
  let name ← expectIdent
  let default ← do if ← eatPunct .equals then some <$> parseDefault else pure none
  expectPunct .semicolon
  return ⟨name, type, required, default⟩

def Field.parseBody : Parser (List Field) := do
  expectPunct .openBrace
  untilBrace (some <$> Field.parse) (← remaining)

/-- The literals of an enumeration up to its closing brace. There is at least one, and a comma may
follow the last. -/
def parseEnumValues : Nat → Parser (List String)
  | 0 => do fail (.expectedEnumValue (← peek))
  | n + 1 => do
    match ← advance with
    | some (.text value) =>
      if ← eatPunct .comma then
        if ← eatPunct .closeBrace then
          return [value]
        else
          return value :: (← parseEnumValues n)
      else
        expectPunct .closeBrace
        return [value]
    | found => fail (.expectedEnumValue found)

/-! ## Definitions -/

namespace Definition

/-- The name after a colon, if there is a colon. -/
def parseParent : Parser (Option String) := do
  if ← eatPunct .colon then some <$> expectIdent else pure none

/-- An interface or mixin, after the word `interface`. -/
def parseInterface (isPartial : Bool) (extAttrs : List ExtAttr) : Parser Definition := do
  if ← eatKeyword "mixin" then
    let name ← expectIdent
    let members ← Member.parseBody
    return .mixin ⟨name, isPartial, members⟩
  else
    let name ← expectIdent
    let parent ← parseParent
    let members ← Member.parseBody
    return .interface ⟨name, isPartial, parent, members, extAttrs⟩

def parseDictionary (isPartial : Bool) : Parser Definition := do
  let name ← expectIdent
  let parent ← parseParent
  let fields ← Field.parseBody
  return .dictionary ⟨name, isPartial, parent, fields⟩

def parseEnum : Parser Definition := do
  let name ← expectIdent
  expectPunct .openBrace
  let values ← parseEnumValues (← remaining)
  return .enumeration ⟨name, values⟩

def parseTypedef : Parser Definition := do
  let _ ← ExtAttr.parseList
  let type ← IdlType.parse
  let name ← expectIdent
  return .typedef ⟨name, type⟩

def parseIncludes : Parser Definition := do
  let target ← expectIdent
  let _ ← advance
  let mixin ← expectIdent
  return .includes ⟨target, mixin⟩

/-- The definition without its extended attributes and final semicolon. A definition marked partial
can only be an interface, mixin or dictionary. -/
def parseBody (isPartial : Bool) (extAttrs : List ExtAttr) : Parser Definition := fun s =>
  match s.peek with
  | some (.ident word) =>
    if word = "interface" then parseInterface isPartial extAttrs s.drop
    else if word = "dictionary" then parseDictionary isPartial s.drop
    else if word = "enum" ∧ !isPartial then parseEnum s.drop
    else if word = "typedef" ∧ !isPartial then parseTypedef s.drop
    else if word = "callback" ∨ word = "namespace" then fail (.unsupportedDefinition word) s
    else if s.peekSecond = some (.ident "includes") ∧ !isPartial then parseIncludes s
    else fail (.expectedDefinition s.peek) s
  | found => fail (.expectedDefinition found) s

/-- One definition, with its extended attributes before it and its semicolon after it. -/
def parse : Parser Definition := do
  let extAttrs ← ExtAttr.parseList
  let isPartial ← eatKeyword "partial"
  let definition ← parseBody isPartial extAttrs
  expectPunct .semicolon
  return definition

/-- All definitions up to the end of the input. -/
def parseAll : Nat → Parser (List Definition)
  | 0 => return []
  | n + 1 => do
    if (← peek).isNone then
      return []
    else
      let first ← parse
      return first :: (← parseAll n)

/-- The definitions of a token stream. -/
def listOfTokens (s : TokenStream) : Except SyntaxError (List Definition) :=
  (parseAll s.tokens.length s).map Prod.fst

/-- The definitions of a text. -/
def listOfText (source : String) : Except SyntaxError (List Definition) :=
  match TokenStream.ofText source with
  | .error e => .error ⟨.lexical e.fault, e.position⟩
  | .ok stream => listOfTokens stream

end Definition
end IdlBindings
