import IdlBindings.Text.Position

/-!
# Tokens of an interface definition

Keywords are identifiers: which words are reserved depends on where they stand, so the grammar
matches them by their text. The end of the input is not a token. It is the place where the
token list stops, which keeps "no parser moves past the end" a fact about lists.

## Main definitions

* `Punct`: the fifteen punctuation marks
* `TokenKind`: what a token is, without where it stands
* `TokenKind.spelling`: the characters a token is written with
* `TokenStream`: the tokens of a text and the position of its end
-/
namespace IdlBindings

/-- The punctuation marks, each a token of one character. -/
inductive Punct where
  | openParen | closeParen
  | openBrace | closeBrace
  | openBracket | closeBracket
  | openAngle | closeAngle
  | comma | semicolon | colon | equals | question | minus | star
deriving DecidableEq, Repr

namespace Punct

def toChar : Punct → Char
  | openParen => '('
  | closeParen => ')'
  | openBrace => '\x7b'
  | closeBrace => '\x7d'
  | openBracket => '['
  | closeBracket => ']'
  | openAngle => '<'
  | closeAngle => '>'
  | comma => ','
  | semicolon => ';'
  | colon => ':'
  | equals => '='
  | question => '?'
  | minus => '-'
  | star => '*'

def all : List Punct :=
  [openParen, closeParen, openBrace, closeBrace, openBracket, closeBracket, openAngle, closeAngle,
    comma, semicolon, colon, equals, question, minus, star]

def ofChar? (c : Char) : Option Punct := all.find? fun p => p.toChar == c

@[simp] theorem ofChar?_toChar (p : Punct) : ofChar? p.toChar = some p := by
  cases p <;> decide

theorem toChar_of_ofChar? {c : Char} {p : Punct} (h : ofChar? c = some p) : p.toChar = c := by
  simpa using List.find?_some h

end Punct

/-- What a token is. Identifiers cover keywords; a text literal is kept without its quotes, and a
numeric literal as it is written. -/
inductive TokenKind where
  | ident (name : String)
  | text (value : String)
  | number (digits : String)
  | punct (mark : Punct)
  | ellipsis
deriving DecidableEq, Repr

namespace TokenKind

/-- The characters of the source that make up the token. -/
def spelling : TokenKind → List Char
  | ident name => name.toList
  | text value => '"' :: value.toList ++ ['"']
  | number digits => digits.toList
  | punct mark => [mark.toChar]
  | ellipsis => ['.', '.', '.']

end TokenKind

/-- How a diagnostic names a token that it did not expect, or the end of the input. -/
def describeToken : Option TokenKind → String
  | some (.ident name) => "'" ++ name ++ "'"
  | some (.text value) => "string \"" ++ value ++ "\""
  | some (.number digits) => "number " ++ digits
  | some (.punct mark) => "'" ++ mark.toChar.toString ++ "'"
  | some .ellipsis => "'...'"
  | none => "end of input"

/-- A token and the position of its first character. -/
structure Token where
  kind : TokenKind
  position : Position
deriving DecidableEq, Repr

/-- The tokens still to be read, and the position where the text ends. -/
structure TokenStream where
  tokens : List Token
  stop : Position
deriving DecidableEq, Repr

namespace TokenStream

/-- The kind of the next token, or none at the end of the input. -/
def peek (s : TokenStream) : Option TokenKind := s.tokens.head?.map Token.kind

/-- The kind of the token after the next one. -/
def peekSecond (s : TokenStream) : Option TokenKind := s.tokens.tail.head?.map Token.kind

/-- Where the next token starts; at the end of the input, where the text ends. -/
def position (s : TokenStream) : Position :=
  match s.tokens with
  | [] => s.stop
  | t :: _ => t.position

/-- Moves over one token, and stays at the end of the input. -/
def drop (s : TokenStream) : TokenStream := { s with tokens := s.tokens.tail }

@[simp] theorem peek_nil (p : Position) : peek ⟨[], p⟩ = none := rfl

@[simp] theorem peek_cons (t : Token) (ts : List Token) (p : Position) :
    peek ⟨t :: ts, p⟩ = some t.kind := rfl

@[simp] theorem position_nil (p : Position) : position ⟨[], p⟩ = p := rfl

@[simp] theorem position_cons (t : Token) (ts : List Token) (p : Position) :
    position ⟨t :: ts, p⟩ = t.position := rfl

@[simp] theorem drop_nil (p : Position) : drop ⟨[], p⟩ = ⟨[], p⟩ := rfl

@[simp] theorem drop_cons (t : Token) (ts : List Token) (p : Position) :
    drop ⟨t :: ts, p⟩ = ⟨ts, p⟩ := rfl

end TokenStream
end IdlBindings
