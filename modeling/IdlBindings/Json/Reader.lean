import IdlBindings.Json.Value

/-!
# Reading JSON text

Readers work on the characters still to be read and stop at the first fault. They are generic in the
kind of error, so that a reader of a particular document can check each part of it as soon as that
part is read, before any fault in the text after it.

Loops carry the number of characters of the whole text as a bound. Every round takes a character, so
the bound reaches zero only where the text ends, and what a loop does at zero is what it does there.

## Main definitions

* `Json.Fault`: why a text is not a JSON text
* `Json.Reader`: a reader with errors of its own kind
* `Json.value`: reads one value of bounded depth
* `Json.foldElements`, `Json.foldEntries`: the parts of a list or object, one at a time
-/
namespace IdlBindings.Json

/-- Why a text is not a JSON text. -/
inductive Fault where
  | endInValue | endInList | endInObject | endInString
  | expectedValue | expectedWord | expectedColon | expectedCommaOrBracket | expectedCommaOrBrace
  | keyNotString | trailingComma | trailingText
  | invalidNumber | numberOutOfRange
  | invalidEscape | unpairedEscape | loneSurrogate | controlCharacter
  | tooDeep
deriving DecidableEq, Repr

def Fault.message : Fault → String
  | endInValue => "EOF while parsing a value"
  | endInList => "EOF while parsing a list"
  | endInObject => "EOF while parsing an object"
  | endInString => "EOF while parsing a string"
  | expectedValue => "expected value"
  | expectedWord => "expected ident"
  | expectedColon => "expected `:`"
  | expectedCommaOrBracket => "expected `,` or `]`"
  | expectedCommaOrBrace => "expected `,` or `\x7d`"
  | keyNotString => "key must be a string"
  | trailingComma => "trailing comma"
  | trailingText => "trailing characters"
  | invalidNumber => "invalid number"
  | numberOutOfRange => "number out of range"
  | invalidEscape => "invalid escape"
  | unpairedEscape => "unexpected end of hex escape"
  | loneSurrogate => "lone leading surrogate in hex escape"
  | controlCharacter => "control character (\\u0000-\\u001F) found while parsing a string"
  | tooDeep => "recursion limit exceeded"

/-! ## Strings -/

def hexValue? (c : Char) : Option Nat :=
  if '0' ≤ c ∧ c ≤ '9' then some (c.toNat - '0'.toNat)
  else if 'a' ≤ c ∧ c ≤ 'f' then some (c.toNat - 'a'.toNat + 10)
  else if 'A' ≤ c ∧ c ≤ 'F' then some (c.toNat - 'A'.toNat + 10)
  else none

/-- How many bytes characters take. -/
def byteCount (cs : List Char) : Nat := cs.foldl (fun n c => n + c.utf8Size) 0

/-- Four hexadecimal digits. A text that ends within the four bytes ends inside its string; any
other character among them makes the escape invalid. -/
def hexEscape : List Char → Except Fault (Nat × List Char)
  | a :: b :: c :: d :: rest =>
    match hexValue? a, hexValue? b, hexValue? c, hexValue? d with
    | some a, some b, some c, some d => .ok (((a * 16 + b) * 16 + c) * 16 + d, rest)
    | _, _, _, _ => .error .invalidEscape
  | cs => .error (if byteCount cs < 4 then .endInString else .invalidEscape)

def isLeading (n : Nat) : Bool := 0xD800 ≤ n && n ≤ 0xDBFF

def isTrailing (n : Nat) : Bool := 0xDC00 ≤ n && n ≤ 0xDFFF

/-- The escape with the trailing half of a character whose leading half is `n`. -/
def trailingEscape (n : Nat) : List Char → Except Fault (Char × List Char)
  | [] => .error .endInString
  | c :: cs =>
    if c ≠ '\\' then .error .unpairedEscape
    else
      match cs with
      | [] => .error .endInString
      | d :: ds =>
        if d ≠ 'u' then .error .unpairedEscape
        else do
          let (m, rest) ← hexEscape ds
          if isTrailing m then
            return (Char.ofNat ((n - 0xD800) * 0x400 + (m - 0xDC00) + 0x10000), rest)
          else
            throw .loneSurrogate

/-- The character of a hexadecimal escape, after its letter. Characters beyond the basic plane are
written as two escapes. -/
def unicodeEscape (cs : List Char) : Except Fault (Char × List Char) := do
  let (n, rest) ← hexEscape cs
  if isTrailing n then throw .loneSurrogate
  else if isLeading n then trailingEscape n rest
  else return (Char.ofNat n, rest)

/-- The character of an escape, after its backslash. -/
def escape : List Char → Except Fault (Char × List Char)
  | [] => .error .endInString
  | '"' :: cs => .ok ('"', cs)
  | '\\' :: cs => .ok ('\\', cs)
  | '/' :: cs => .ok ('/', cs)
  | 'b' :: cs => .ok ('\x08', cs)
  | 'f' :: cs => .ok ('\x0c', cs)
  | 'n' :: cs => .ok ('\n', cs)
  | 'r' :: cs => .ok ('\r', cs)
  | 't' :: cs => .ok ('\t', cs)
  | 'u' :: cs => unicodeEscape cs
  | _ => .error .invalidEscape

/-- The characters of a string up to its closing quote. -/
def stringEnd : Nat → List Char → Except Fault (List Char × List Char)
  | 0, _ => .error .endInString
  | _ + 1, [] => .error .endInString
  | n + 1, c :: cs =>
    if c = '"' then .ok ([], cs)
    else if c.toNat < 0x20 then .error .controlCharacter
    else do
      let (d, rest) ← if c = '\\' then escape cs else pure (c, cs)
      let (ds, rest) ← stringEnd n rest
      return (d :: ds, rest)

/-! ## Numbers -/

/-- Leading digits that still fit in 64 bits when added to `digits`, how many they are, and the
rest. -/
def takeDigits (digits count : Nat) : List Char → Nat × Nat × List Char
  | [] => (digits, count, [])
  | c :: cs =>
    let more := digits * 10 + (c.toNat - '0'.toNat)
    if c.isDigit ∧ more < 0x10000000000000000 then takeDigits more (count + 1) cs
    else (digits, count, c :: cs)

def startsWithDigit : List Char → Bool
  | [] => false
  | c :: _ => c.isDigit

/-- The number for digits and a power of ten. -/
def realNumber (negative : Bool) (digits : Nat) (exponent : Int) : Except Fault Number :=
  match scaled? digits exponent with
  | some x => .ok (.real (if negative then -x else x))
  | none => .error .numberOutOfRange

/-- What follows the letter of an exponent. -/
def exponentEnd (negative : Bool) (digits : Nat) (start : Int) (cs : List Char) :
    Except Fault (Number × List Char) :=
  let (down, cs) := match cs with
    | '+' :: rest => (false, rest)
    | '-' :: rest => (true, rest)
    | _ => (false, cs)
  match cs with
  | [] => .error .endInValue
  | c :: _ =>
    if c.isDigit then do
      let power := (cs.takeWhile Char.isDigit).foldl (fun n c => n * 10 + (c.toNat - '0'.toNat)) 0
      let x ← realNumber negative digits (if down then start - power else start + power)
      return (x, cs.dropWhile Char.isDigit)
    else .error .invalidNumber

/-- What follows the digits of a number written with a fraction or exponent, or with too many digits
for an integer. -/
def realEnd (negative : Bool) (digits : Nat) (exponent : Int) :
    List Char → Except Fault (Number × List Char)
  | 'e' :: cs => exponentEnd negative digits exponent cs
  | 'E' :: cs => exponentEnd negative digits exponent cs
  | cs => do return (← realNumber negative digits exponent, cs)

/-- What follows the point of a fraction. Digits that do not fit are dropped. -/
def fractionEnd (negative : Bool) (digits : Nat) (exponent : Int) (cs : List Char) :
    Except Fault (Number × List Char) :=
  if startsWithDigit cs then
    let (digits, count, rest) := takeDigits digits 0 cs
    realEnd negative digits (exponent - count) (rest.dropWhile Char.isDigit)
  else .error (if cs.isEmpty then .endInValue else .invalidNumber)

/-- What follows the integer part. Digits that do not fit count as a power of ten. -/
def numberEnd (negative : Bool) (digits : Nat) (cs : List Char) :
    Except Fault (Number × List Char) :=
  let dropped := (cs.takeWhile Char.isDigit).length
  match cs.dropWhile Char.isDigit with
  | '.' :: rest => fractionEnd negative digits dropped rest
  | rest =>
    if dropped = 0 ∧ !(rest.head? == some 'e' || rest.head? == some 'E') then
      .ok (Number.ofDigits negative digits, rest)
    else realEnd negative digits dropped rest

/-- A number after its sign. It does not start with a zero that another digit follows. -/
def numberAfterSign (negative : Bool) : List Char → Except Fault (Number × List Char)
  | [] => .error .endInValue
  | c :: cs =>
    if c = '0' then
      if startsWithDigit cs then .error .invalidNumber else numberEnd negative 0 cs
    else if c.isDigit then
      let (digits, _, rest) := takeDigits 0 0 (c :: cs)
      numberEnd negative digits rest
    else .error .invalidNumber

/-! ## Readers -/

/-- A reader takes the characters still to be read; its errors include the faults of the text. -/
abbrev Reader (ε : Type) := StateT (List Char) (Except ε)

/-- The characters that may stand between the parts of a text. -/
def isSpace (c : Char) : Bool := c == ' ' || c == '\n' || c == '\t' || c == '\r'

section
variable {ε α σ : Type} [Coe Fault ε]

def reject (fault : Fault) : Reader ε α := throw (fault : ε)

/-- Runs a function of the characters still to be read. -/
def reading (f : List Char → Except Fault (α × List Char)) : Reader ε α := fun cs =>
  match f cs with
  | .ok r => .ok r
  | .error fault => .error (fault : ε)

/-- Drops spaces and gives the character after them, which stays unread. -/
def peekChar : Reader ε (Option Char) := fun cs =>
  let rest := cs.dropWhile isSpace
  .ok (rest.head?, rest)

def skipChar : Reader ε Unit := fun cs => .ok ((), cs.tail)

/-- The remaining letters of a literal word. -/
def word : List Char → Reader ε Unit
  | [] => return ()
  | expected :: more => do
    match ← get with
    | [] => reject .endInValue
    | c :: cs =>
      if c = expected then
        set cs
        word more
      else reject .expectedWord

/-- A string after its opening quote. -/
def stringBody (size : Nat) : Reader ε String := do
  return String.ofList (← reading (stringEnd size))

/-- Whether a list has another element, at its start or after an element. At its end the closing
bracket is read. -/
def anotherElement (first : Bool) : Reader ε Bool := do
  match ← peekChar with
  | none => reject .endInList
  | some ']' =>
    skipChar
    return false
  | some c =>
    if first then return true
    else if c = ',' then
      skipChar
      match ← peekChar with
      | none => reject .endInValue
      | some ']' => reject .trailingComma
      | some _ => return true
    else reject .expectedCommaOrBracket

/-- The name of the next entry of an object, with the colon after it not yet read. At the end of the
object the closing brace is read. -/
def anotherKey (size : Nat) (first : Bool) : Reader ε (Option String) := do
  match ← peekChar with
  | none => reject .endInObject
  | some '\x7d' =>
    skipChar
    return none
  | some c =>
    if first then
      if c = '"' then
        skipChar
        some <$> stringBody size
      else reject .keyNotString
    else if c = ',' then
      skipChar
      match ← peekChar with
      | none => reject .endInValue
      | some '"' =>
        skipChar
        some <$> stringBody size
      | some '\x7d' => reject .trailingComma
      | some _ => reject .keyNotString
    else reject .expectedCommaOrBrace

def colon : Reader ε Unit := do
  match ← peekChar with
  | none => reject .endInObject
  | some ':' => skipChar
  | some _ => reject .expectedColon

/-- Reads each element of a list with `step`, after the opening bracket. -/
def foldElements (step : σ → Reader ε σ) : Nat → Bool → σ → Reader ε σ
  | 0, _, _ => reject .endInList
  | n + 1, first, s => do
    if ← anotherElement first then
      let s ← step s
      foldElements step n false s
    else
      return s

/-- Reads what follows the name of each entry of an object with `step`, after the opening brace. The
colon is left to `step`, which may reject a name before it. -/
def foldEntries (size : Nat) (step : σ → String → Reader ε σ) : Nat → Bool → σ → Reader ε σ
  | 0, _, _ => reject .endInObject
  | n + 1, first, s => do
    match ← anotherKey size first with
    | some key =>
      let s ← step s key
      foldEntries size step n false s
    | none => return s

/-- The elements of a list, after the opening bracket. -/
def elements (size : Nat) (item : Reader ε α) : Reader ε (List α) := do
  let items ← foldElements (fun items => do return (← item) :: items) size true []
  return items.reverse

/-- The entries of an object, after the opening brace. -/
def entries (size : Nat) (item : Reader ε α) : Reader ε (List (String × α)) := do
  let fields ← foldEntries size
    (fun fields key => do
      colon
      return (key, ← item) :: fields)
    size true []
  return fields.reverse

/-- A value, where `nested` reads the values inside a list or object; without it no list or object
may open. -/
def valueWith (size : Nat) (nested : Option (Reader ε Value)) : Reader ε Value := do
  match ← peekChar with
  | none => reject .endInValue
  | some 'n' =>
    word "null".toList
    return .null
  | some 't' =>
    word "true".toList
    return .bool true
  | some 'f' =>
    word "false".toList
    return .bool false
  | some '"' =>
    skipChar
    return .string (← stringBody size)
  | some '[' =>
    match nested with
    | none => reject .tooDeep
    | some item =>
      skipChar
      return .array (← elements size item)
  | some '\x7b' =>
    match nested with
    | none => reject .tooDeep
    | some item =>
      skipChar
      return .object (← entries size item)
  | some '-' =>
    skipChar
    return .number (← reading (numberAfterSign true))
  | some c =>
    if c.isDigit then return .number (← reading (numberAfterSign false))
    else reject .expectedValue

/-- A value that opens at most `depth` lists and objects inside each other. -/
def value (size : Nat) : Nat → Reader ε Value
  | 0 => valueWith size none
  | depth + 1 => valueWith size (some (value size depth))

end

/-- How many lists and objects may be open at once. -/
def maxDepth : Nat := 127

end IdlBindings.Json
