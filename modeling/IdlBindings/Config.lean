import IdlBindings.Binding.Unit
import IdlBindings.Format
import IdlBindings.Text.Identifier

/-!
# Configurations

What a run reads, what it writes and how. Whatever is not given follows from the path of the
document.

## Main definitions

* `Config`: a configuration
* `Config.outputPath`, `Config.headerPath`: where the generated code and the support header go
* `Config.effectiveModuleName`, `Config.effectiveFormat`: settings with their defaults
-/
namespace IdlBindings

/-- The configuration of a run. -/
structure Config where
  /-- The document. -/
  input : Path := ⟨"bindings.idl"⟩
  output : Option Path := none
  moduleName : Option String := none
  napiHeader : String := "js_native_api.h"
  extraIncludes : List String := []
  format : Option SourceFormat := none
  registerModule : Bool := false
  writeSupportHeader : Bool := false
deriving DecidableEq, Repr

namespace Config

/-- Where the generated code goes: next to the document unless a path is given. -/
def outputPath (c : Config) : Path := c.output.getD (c.input.withExtension "cc")

/-- Where the support header goes: next to the generated code. -/
def headerPath (c : Config) : Path := (c.outputPath.parent?.getD ⟨""⟩).join supportHeaderName

/-- The module name, by default that of the document. It is made an identifier in any case. -/
def effectiveModuleName (c : Config) : String :=
  cIdentifier (c.moduleName.getD (c.input.stem?.getD ""))

def effectiveFormat (c : Config) : SourceFormat := c.format.getD (SourceFormat.ofPath c.input)

/-- The options of the unit. Its comment names the file of the document without its directory. -/
def unitOptions (c : Config) : UnitOptions where
  moduleName := c.effectiveModuleName
  napiHeader := c.napiHeader
  extraIncludes := c.extraIncludes
  registerModule := c.registerModule
  sourceName := c.input.fileName?

end Config
end IdlBindings
