import IdlBindings.Json.Reader
import IdlBindings.Text.Shown

/-!
# Faults of a syntax tree

A tree is rejected because its text is malformed or because a part of it has the wrong shape.

## Main definitions

* `Found`, `Expected`: the two sides of a mismatch
* `TreeFault`: every reason to reject a tree, with its `message`
-/
namespace IdlBindings

/-- What stands where something else was expected. -/
inductive Found where
  | null
  | bool (b : Bool)
  | integer (n : Int)
  | real (x : Float)
  | text (s : String)
  | sequence
  | map
deriving Repr

namespace Found

def ofValue : Json.Value → Found
  | .null => null
  | .bool b => bool b
  | .number (.integer n) => integer n
  | .number (.real x) => real x
  | .string s => text s
  | .array _ => sequence
  | .object _ => map

def describe : Found → String
  | null => "null"
  | bool b => "boolean `" ++ (if b then "true" else "false") ++ "`"
  | integer n => "integer `" ++ toString n ++ "`"
  | real x => "floating point `" ++ Json.realText x ++ "`"
  | text s => "string " ++ shown s
  | sequence => "sequence"
  | map => "map"

end Found

/-- What a part of a tree has to be. -/
inductive Expected where
  | string
  | boolean
  | sequence
  /-- The word that tells the kind of a node. -/
  | tag
  /-- A node with fields. -/
  | record (name : String)
  /-- A node whose kind is told by its tag. -/
  | tagged (name : String)
deriving Repr

def Expected.describe : Expected → String
  | string => "a string"
  | boolean => "a boolean"
  | sequence => "a sequence"
  | tag => "variant identifier"
  | record name => "struct " ++ name
  | tagged name => "internally tagged enum " ++ name

/-- Why a tree is rejected. -/
inductive TreeFault where
  /-- The text is not a JSON text. -/
  | malformed (fault : Json.Fault)
  | mismatch (found : Found) (expected : Expected)
  | missingField (name : String)
  | duplicateField (name : String)
  | unknownTag (tag : String) (known : List String)
  /-- A tag given as a number that no tag has. -/
  | unknownTagIndex (index : Nat) (count : Nat)
  /-- A node written as a list ends before a field that it needs. -/
  | tooFew (index : Nat) (record : String) (size : Nat)
  /-- A node written as a list goes on after its last field. -/
  | tooMany (given : Nat) (taken : Nat)
  /-- The body of a type is neither a name nor a list of types. -/
  | noTypeBody
deriving Repr

instance : Coe Json.Fault TreeFault := ⟨.malformed⟩

namespace TreeFault

def countElements (n : Nat) : String :=
  if n = 1 then "1 element" else toString n ++ " elements"

def message : TreeFault → String
  | malformed fault => fault.message
  | mismatch found expected =>
    "invalid type: " ++ found.describe ++ ", expected " ++ expected.describe
  | missingField name => "missing field `" ++ name ++ "`"
  | duplicateField name => "duplicate field `" ++ name ++ "`"
  | unknownTag tag known =>
    "unknown variant `" ++ tag ++ "`, expected one of " ++
      String.intercalate ", " (known.map fun name => "`" ++ name ++ "`")
  | unknownTagIndex index count =>
    "invalid value: integer `" ++ toString index ++ "`, expected variant index 0 <= i < " ++
      toString count
  | tooFew index record size =>
    "invalid length " ++ toString index ++ ", expected struct " ++ record ++ " with " ++
      countElements size
  | tooMany given taken =>
    "invalid length " ++ toString given ++ ", expected " ++ countElements taken ++ " in sequence"
  | noTypeBody => "data did not match any variant of untagged enum RawTypeName"

end TreeFault
end IdlBindings
