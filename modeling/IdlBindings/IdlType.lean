/-!
# Types as they are written

A type reference keeps only the structure that later stages look at. A wrapper with one parameter
stays a tree; a union, a nullable type or a wrapper with several parameters has no native
counterpart and is carried by its text.

## Main definitions

* `IdlType`: a type reference
* `IdlType.text`: how it is written
-/
namespace IdlBindings

/-- A type reference in a definition. -/
inductive IdlType where
  /-- A name, or the text of a type that is not looked into. -/
  | named (name : String)
  /-- A wrapper with one parameter, such as `Promise<T>`. -/
  | generic (wrapper : String) (inner : IdlType)
deriving DecidableEq, Repr

namespace IdlType

def text : IdlType → String
  | named name => name
  | generic wrapper inner => wrapper ++ "<" ++ inner.text ++ ">"

@[simp] theorem text_named (name : String) : (named name).text = name := rfl

@[simp] theorem text_generic (wrapper : String) (inner : IdlType) :
    (generic wrapper inner).text = wrapper ++ "<" ++ inner.text ++ ">" := rfl

/-- The type is written `undefined` or `void`: as the type of an operation's result it means that
there is none. An alias of it does not count. -/
def isUndefined : IdlType → Bool
  | named name => name == "undefined" || name == "void"
  | generic _ _ => false

/-- A nullable type, which is opaque. -/
def nullable (t : IdlType) : IdlType := named (t.text ++ "?")

/-- A union, which is opaque. -/
def union (parts : List IdlType) : IdlType :=
  named ("(" ++ String.intercalate " or " (parts.map text) ++ ")")

/-- A wrapper with a list of parameters in its text, which is opaque. -/
def manyParams (wrapper : String) (params : List IdlType) : IdlType :=
  named (wrapper ++ "<" ++ String.intercalate ", " (params.map text) ++ ">")

end IdlType
end IdlBindings
