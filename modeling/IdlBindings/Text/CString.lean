/-!
# String literals of generated code

Text of a document enters generated code only inside a literal. Quotes and backslashes are escaped,
and so is every control character below the blank: three have letters, the others are given by two
hexadecimal digits.

## Main definitions

* `cString`: a text as a literal
-/
namespace IdlBindings

/-- A hexadecimal digit. -/
def hexDigit (n : Nat) : Char := Nat.digitChar (n % 16)

/-- The spelling of a character inside a literal. -/
def cStringChar (c : Char) : List Char :=
  if c = '"' then ['\\', '"']
  else if c = '\\' then ['\\', '\\']
  else if c = '\n' then ['\\', 'n']
  else if c = '\r' then ['\\', 'r']
  else if c = '\t' then ['\\', 't']
  else if c.toNat < 0x20 then ['\\', 'x', hexDigit (c.toNat / 16), hexDigit c.toNat]
  else [c]

/-- A text as a literal. -/
def cString (s : String) : String := String.ofList ('"' :: s.toList.flatMap cStringChar ++ ['"'])

end IdlBindings
