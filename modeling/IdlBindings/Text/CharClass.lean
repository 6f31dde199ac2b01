/-!
# Character classes

Blanks are the characters with the Unicode property `White_Space`; all other classes used by the
grammar are of ASCII characters only.

## Main definitions

* `isBlank`: white space between tokens
* `isIdentStart`, `isIdentPart`: the first and the further characters of an identifier
* `isNumberPart`: the characters a numeric literal runs over
-/
namespace IdlBindings

/-- The characters with the Unicode property `White_Space`. -/
def isBlank (c : Char) : Bool :=
  let n := c.toNat
  (0x09 ≤ n && n ≤ 0x0D) || n == 0x20 || n == 0x85 || n == 0xA0 || n == 0x1680 ||
    (0x2000 ≤ n && n ≤ 0x200A) || n == 0x2028 || n == 0x2029 || n == 0x202F || n == 0x205F ||
    n == 0x3000

def isIdentStart (c : Char) : Bool := c.isAlpha || c == '_'

/-- A hyphen may stand inside an identifier but not start one. -/
def isIdentPart (c : Char) : Bool := c.isAlphanum || c == '_' || c == '-'

/-- A numeric literal is taken as the longest run of these, so a hexadecimal marker, an exponent
letter or a stray letter all belong to it, and a sign inside an exponent does not. -/
def isNumberPart (c : Char) : Bool := c.isAlphanum || c == '.'

theorem isIdentPart_of_isIdentStart {c : Char} (h : isIdentStart c) : isIdentPart c := by
  simp only [isIdentStart, isIdentPart, Char.isAlphanum, Bool.or_eq_true] at h ⊢
  rcases h with h | h
  · exact .inl (.inl (.inl h))
  · exact .inl (.inr h)

end IdlBindings
