/-!
# Names of generated code

Names in a document are arbitrary text; names in generated code are identifiers. Every character
that an identifier cannot hold becomes an underscore, and an underscore is put in front of a digit.

## Main definitions

* `cIdentifier`: an identifier made from any name
* `enumIdentifier`: the enumerator for a literal of an enumeration
-/
namespace IdlBindings

/-- An ASCII letter or digit stays; anything else becomes an underscore. -/
def identChar (c : Char) : Char := if c.isAlphanum then c else '_'

/-- Puts an underscore before a leading digit. -/
def guardDigit : List Char → List Char
  | [] => []
  | c :: cs => if c.isDigit then '_' :: c :: cs else c :: cs

/-- An identifier made from a name. The empty name becomes an underscore. -/
def cIdentifier (name : String) : String :=
  match name.toList.map identChar with
  | [] => "_"
  | cs => String.ofList (guardDigit cs)

/-- The enumerator for a literal. Its first letter is a capital; the empty literal has a name of its
own. -/
def enumIdentifier (literal : String) : String :=
  match literal.toList with
  | [] => "_empty"
  | c :: cs => String.ofList (guardDigit (identChar c.toUpper :: cs.map identChar))

end IdlBindings
