import IdlBindings.Tree.Decode

/-!
# Reading the text of a syntax tree

The text is read as a stream. A definition is decoded as soon as it is read, so a fault of its shape
is reported before any fault in the text after it. Inside a definition the tag is checked where it
is met, and everything else after the whole definition is read.

## Main definitions

* `readDefinition`: one definition of the stream
* `DefinitionNode.listOfText`: the definitions of a whole text
-/
namespace IdlBindings

/-- A reader of trees. -/
abbrev TreeReader := Json.Reader TreeFault

open Json (peekChar skipChar)

def TreeReader.ofExcept {α : Type} (result : Except TreeFault α) : TreeReader α := fun cs =>
  result.map fun a => (a, cs)

/-- Rejects the value that comes next. A list or object is rejected where it opens; any other value
is read first, so that its own faults win. -/
def readMismatch {α : Type} (size : Nat) (expected : Expected) : TreeReader α := do
  match ← peekChar with
  | some '[' => throw (.mismatch .sequence expected)
  | some '\x7b' => throw (.mismatch .map expected)
  | _ => throw (.mismatch (.ofValue (← Json.value size 0)) expected)

/-- The tag of a definition, which has to be a word. -/
def readTag (size : Nat) : TreeReader DefinitionTag := do
  match ← peekChar with
  | some '"' =>
    skipChar
    let word ← Json.stringBody size
    TreeReader.ofExcept (tagOfText DefinitionTag.all word)
  | _ => readMismatch size .tag

/-- The fields of a definition written as an object, after its opening brace, with its tag apart. A
second tag is rejected by its name alone. -/
def readTaggedObject (size : Nat) (item : TreeReader Json.Value) :
    TreeReader (DefinitionTag × Json.Value) := do
  let (tag, fields) ← Json.foldEntries size
    (fun ((tag, fields) : Option DefinitionTag × List (String × Json.Value)) key => do
      if key = tagField && tag.isSome then throw (.duplicateField tagField)
      Json.colon
      if key = tagField then return (some (← readTag size), fields)
      else return (tag, (key, ← item) :: fields))
    size true (none, [])
  match tag with
  | some tag => return (tag, .object fields.reverse)
  | none => throw (.missingField tagField)

/-- The elements of a definition written as a list, after its opening bracket. The tag comes first.
-/
def readTaggedList (size : Nat) (item : TreeReader Json.Value) :
    TreeReader (DefinitionTag × Json.Value) := do
  let (tag, fields) ← Json.foldElements
    (fun ((tag, fields) : Option DefinitionTag × List Json.Value) => do
      if tag.isSome then return (tag, (← item) :: fields)
      else return (some (← readTag size), fields))
    size true (none, [])
  match tag with
  | some tag => return (tag, .array fields.reverse)
  | none => throw (.missingField tagField)

/-- One definition. Two lists or objects are open around its fields: its own and the whole document.
-/
def readDefinition (size : Nat) : TreeReader DefinitionNode := do
  let item := Json.value size (Json.maxDepth - 2)
  match ← peekChar with
  | some '[' =>
    skipChar
    let (tag, fields) ← readTaggedList size item
    TreeReader.ofExcept (tag.decode fields)
  | some '\x7b' =>
    skipChar
    let (tag, fields) ← readTaggedObject size item
    TreeReader.ofExcept (tag.decode fields)
  | _ => readMismatch size (.tagged "RawDefinition")

/-- The list of definitions, after which nothing but spaces may follow. -/
def readDocument (size : Nat) : TreeReader (List DefinitionNode) := do
  match ← peekChar with
  | some '[' =>
    skipChar
    let nodes ← Json.elements size (readDefinition size)
    match ← peekChar with
    | none => return nodes
    | some _ => throw (.malformed .trailingText)
  | _ => readMismatch size .sequence

/-- The definitions of a text. -/
def DefinitionNode.listOfText (source : String) : Except TreeFault (List DefinitionNode) :=
  let cs := source.toList
  (readDocument cs.length cs).map Prod.fst

end IdlBindings
