import IdlBindings.Text.Unprintable

/-!
# Text shown in a diagnostic

A text that a diagnostic quotes is shown so that it stays on one line and every character of it can
be told: quotes and backslashes are escaped, a few controls have letters, and all other characters
without a glyph of their own are given by their code point.

## Main definitions

* `shown`: a text in quotes, with its escapes
-/
namespace IdlBindings

/-- A character inside a quoted text. -/
def shownChar (c : Char) : String :=
  if c = '\x00' then "\\0"
  else if c = '\t' then "\\t"
  else if c = '\r' then "\\r"
  else if c = '\n' then "\\n"
  else if c = '\\' then "\\\\"
  else if c = '"' then "\\\""
  else if isUnprintable c then
    "\\u\x7b" ++ String.ofList (Nat.toDigits 16 c.toNat) ++ "\x7d"
  else c.toString

def shown (s : String) : String := "\"" ++ String.join (s.toList.map shownChar) ++ "\""

end IdlBindings
