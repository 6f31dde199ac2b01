import IdlBindings.Token.Lexer

/-!
# Parsers over a token stream

A parser takes the tokens still to be read and gives a result with the tokens it left, or the first
syntax error. A fault is reported at the token that is next when it is raised, which for some faults
is the token after the offending one.

Loops carry a bound on the number of tokens still to be read. Since the bound starts as that number
and every round takes a token, it reaches zero only at the end of the input, and what a loop does at
zero is what it does there.

## Main definitions

* `SyntaxFault`: every reason to reject a token stream
* `Parser`: a parser with its primitives `peek`, `advance`, `fail`
* `Parser.commaSeparated`: one or more items with commas between them
-/
namespace IdlBindings

/-- Why a text is not a document. The token that was found is none at the end of the input. -/
inductive SyntaxFault where
  /-- The text does not even split into tokens. -/
  | lexical (fault : LexFault)
  | expectedPunct (mark : Punct) (found : Option TokenKind)
  | expectedIdentifier (found : Option TokenKind)
  | expectedDefinition (found : Option TokenKind)
  | expectedType (found : Option TokenKind)
  | expectedEnumValue (found : Option TokenKind)
  | expectedDefault (found : Option TokenKind)
  /-- A kind of definition that has no bindings. -/
  | unsupportedDefinition (keyword : String)
  /-- The word for a read-only member stands before something else than an attribute. -/
  | expectedAttribute
  /-- An operation without a name. -/
  | anonymousOperation
  /-- The input ends inside a member that is skipped. -/
  | unfinishedMember
  /-- The input ends inside the right-hand side of an extended attribute. -/
  | unfinishedExtAttr
deriving DecidableEq, Repr

def SyntaxFault.message : SyntaxFault → String
  | lexical fault => fault.message
  | expectedPunct mark found =>
    "expected '" ++ mark.toChar.toString ++ "', found " ++ describeToken found
  | expectedIdentifier found => "expected identifier, found " ++ describeToken found
  | expectedDefinition found => "expected a definition, found " ++ describeToken found
  | expectedType found => "expected type, found " ++ describeToken found
  | expectedEnumValue found => "expected enum value string, found " ++ describeToken found
  | expectedDefault found => "expected default value, found " ++ describeToken found
  | unsupportedDefinition keyword => "'" ++ keyword ++ "' definitions are not supported"
  | expectedAttribute => "expected 'attribute' after 'readonly'"
  | anonymousOperation => "anonymous special operations are not supported"
  | unfinishedMember => "unexpected end of input in member"
  | unfinishedExtAttr => "unterminated extended attribute"

/-- A fault and where it is reported. -/
structure SyntaxError where
  fault : SyntaxFault
  position : Position
deriving DecidableEq, Repr

/-- A parser is a function from the tokens still to be read. -/
abbrev Parser := StateT TokenStream (Except SyntaxError)

namespace Parser

/-- The next token, which stays unread; none at the end of the input. -/
def peek : Parser (Option TokenKind) := fun s => .ok (s.peek, s)

/-- Reads the next token. -/
def advance : Parser (Option TokenKind) := fun s => .ok (s.peek, s.drop)

/-- How many tokens are still to be read. -/
def remaining : Parser Nat := fun s => .ok (s.tokens.length, s)

/-- Rejects the input at the next token. -/
def fail {α : Type} (fault : SyntaxFault) : Parser α := fun s => .error ⟨fault, s.position⟩

/-- Reads the next token if it is `kind`, and tells whether it was. -/
def eat (kind : TokenKind) : Parser Bool := do
  if (← peek) = some kind then
    let _ ← advance
    return true
  else
    return false

def eatKeyword (word : String) : Parser Bool := eat (.ident word)

def eatPunct (mark : Punct) : Parser Bool := eat (.punct mark)

def expectPunct (mark : Punct) : Parser Unit := do
  unless ← eatPunct mark do
    fail (.expectedPunct mark (← peek))

/-- Reads a declared name. All leading underscores are dropped: one underscore escapes a name that
would otherwise be a keyword. -/
def expectIdent : Parser String := do
  match ← peek with
  | some (.ident name) =>
    let _ ← advance
    return String.ofList (name.toList.dropWhile (· == '_'))
  | found => fail (.expectedIdentifier found)

/-- One or more items with commas between them. At the end of the input `item` fails, so the bound
cuts nothing off. -/
def commaSeparated {α : Type} (item : Parser α) : Nat → Parser (List α)
  | 0 => do return [← item]
  | n + 1 => do
    let first ← item
    if ← eatPunct .comma then
      return first :: (← commaSeparated item n)
    else
      return [first]

/-- Items up to a closing brace, of which those that give nothing are left out. At the end of the
input `item` fails. -/
def untilBrace {α : Type} (item : Parser (Option α)) : Nat → Parser (List α)
  | 0 => do
    let last ← item
    return last.toList
  | n + 1 => do
    if ← eatPunct .closeBrace then
      return []
    else
      let first ← item
      return first.toList ++ (← untilBrace item n)

/-! ## What the primitives do to the stream -/

@[simp] theorem run_peek (s : TokenStream) : peek s = .ok (s.peek, s) := rfl

@[simp] theorem run_advance (s : TokenStream) : advance s = .ok (s.peek, s.drop) := rfl

@[simp] theorem run_remaining (s : TokenStream) : remaining s = .ok (s.tokens.length, s) := rfl

@[simp] theorem run_fail {α : Type} (fault : SyntaxFault) (s : TokenStream) :
    (fail fault : Parser α) s = .error ⟨fault, s.position⟩ := rfl

@[simp] theorem run_pure {α : Type} (a : α) (s : TokenStream) :
    (pure a : Parser α) s = .ok (a, s) := rfl

theorem run_bind {α β : Type} (p : Parser α) (f : α → Parser β) (s : TokenStream) :
    (p >>= f) s = match p s with
      | .ok (a, rest) => f a rest
      | .error e => .error e := by
  show (p s >>= fun r => f r.1 r.2) = _
  cases p s <;> rfl

theorem run_eat (kind : TokenKind) (s : TokenStream) :
    eat kind s = if s.peek = some kind then .ok (true, s.drop) else .ok (false, s) := by
  simp only [eat, run_bind, run_peek]
  split <;> simp [run_bind]

end Parser
end IdlBindings
