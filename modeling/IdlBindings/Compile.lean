import IdlBindings.Binding.SupportHeader
import IdlBindings.Config

/-!
# Runs

A run reads a document, generates its bindings and writes them. Everything between reading and
writing is a function of the text, and nothing is written before it has succeeded. The support
header is written first, so that a failure leaves no bindings behind.

Runs reach files only through a few operations, which may be those of the machine or those of a
`FileTree`.

## Main definitions

* `Disk`: operations on files
* `Generation`, `Config.generate`: what a document gives
* `Config.compile`, `Config.check`, `Config.generateSource`: the three kinds of runs
-/
namespace IdlBindings

/-- Operations on files. -/
structure Disk (m : Type → Type) where
  read : Path → m (Except AccessFault ByteArray)
  /-- Makes a directory and those above it, where they do not exist. -/
  makeDirs : Path → m (Except AccessFault Unit)
  /-- Writes a file, making it if it does not exist. -/
  write : Path → ByteArray → m (Except AccessFault Unit)

/-- What a run tells about itself. -/
structure Summary where
  interfaces : Nat
  dictionaries : Nat
  enums : Nat
  typedefs : Nat
  unsupported : List String
  warnings : List String
  /-- The files written, in order. -/
  written : List Path
deriving DecidableEq, Repr

/-- What a document gives: the text of the bindings, and the summary of a run that writes nothing.
-/
structure Generation where
  source : String
  summary : Summary
deriving DecidableEq, Repr

namespace Config

/-- The bindings of a document with a text. -/
def generate (c : Config) (text : String) : Except CompileError Generation := do
  let model ← Model.ofSource c.effectiveFormat text c.input
  let warnings ← model.check.mapError .mixedStatic
  let unit := BindingUnit.ofModel model c.unitOptions
  return {
    source := unit.source
    summary := {
      interfaces := model.interfaces.length
      dictionaries := model.dictionaries.length
      enums := model.enums.length
      typedefs := model.typedefs.length
      unsupported := unit.unsupported
      warnings := warnings
      written := [] } }

variable {m : Type → Type} [Monad m]

/-- An operation on a path, whose failure names the path. -/
def access {α : Type} (path : Path) (operation : m (Except AccessFault α)) :
    ExceptT CompileError m α :=
  ExceptT.mk do return (← operation).mapError (.access path)

/-- The text of a file. -/
def readText (disk : Disk m) (path : Path) : ExceptT CompileError m String := do
  let bytes ← access path (disk.read path)
  match String.fromUTF8? bytes with
  | some text => return text
  | none => throw (.access path .notText)

/-- Writes a text to a file, in a directory that is made for it. -/
def writeText (disk : Disk m) (path : Path) (text : String) : ExceptT CompileError m Unit := do
  if let some parent := path.parent? then
    if parent.text ≠ "" then
      access parent (disk.makeDirs parent)
  access path (disk.write path text.toUTF8)

/-- Reads the document and generates its bindings. -/
def run (disk : Disk m) (c : Config) : ExceptT CompileError m Generation := do
  let text ← readText disk c.input
  ExceptT.mk (pure (c.generate text))

/-- The files that a run writes, with their texts. -/
def outputs (c : Config) (source : String) : List (Path × String) :=
  (if c.writeSupportHeader then [(c.headerPath, supportHeader)] else []) ++ [(c.outputPath, source)]

/-- Writes the bindings of a document. -/
def compile (disk : Disk m) (c : Config) : ExceptT CompileError m Summary := do
  let g ← run disk c
  let files := c.outputs g.source
  files.forM fun (path, text) => writeText disk path text
  return { g.summary with written := files.map Prod.fst }

/-- Generates the bindings and writes nothing. -/
def check (disk : Disk m) (c : Config) : ExceptT CompileError m Summary :=
  Generation.summary <$> run disk c

/-- The bindings of a document. -/
def generateSource (disk : Disk m) (c : Config) : ExceptT CompileError m String :=
  Generation.source <$> run disk c

end Config
end IdlBindings
