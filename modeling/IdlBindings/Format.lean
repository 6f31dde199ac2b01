import IdlBindings.Error

/-!
# Formats of a document

A document is written as text in the definition language, or as the syntax tree of such a text in
JSON. Both give the same list of definitions, and nothing later can tell them apart.

## Main definitions

* `SourceFormat`, `SourceFormat.ofName`, `SourceFormat.ofPath`: the formats and how one is chosen
* `SourceFormat.parse`: the definitions of a document
* `Model.ofSource`: the model of a document
-/
namespace IdlBindings

inductive SourceFormat where
  | idl
  | json
deriving DecidableEq, Repr

namespace SourceFormat

/-- The format with a name. Each has a second one. -/
def ofName (name : String) : Except CompileError SourceFormat :=
  if name = "idl" ∨ name = "webidl" then .ok idl
  else if name = "json" ∨ name = "webidl2" then .ok json
  else .error (.unknownFormat name)

/-- The format that a path suggests. Every extension but one is taken for text. -/
def ofPath (path : Path) : SourceFormat :=
  match path.extension? with
  | some extension => if extension.toLower = "json" then json else idl
  | none => idl

def name : SourceFormat → String
  | idl => "idl"
  | json => "json"

/-- The usual extensions of files in the format. -/
def extensions : SourceFormat → List String
  | idl => ["idl", "webidl"]
  | json => ["json"]

/-- The definitions of a document. The path is only named in failures. -/
def parse (format : SourceFormat) (source : String) (file : Path) :
    Except CompileError (List Definition) :=
  match format with
  | idl => (Definition.listOfText source).mapError (.malformedText file)
  | json => (Definition.listOfTree source).mapError (.malformedTree file)

end SourceFormat

/-- The model of a document. -/
def Model.ofSource (format : SourceFormat) (source : String) (file : Path) :
    Except CompileError Model := do
  let definitions ← format.parse source file
  (Model.ofDefinitions definitions).mapError .inconsistent

end IdlBindings
