import IdlBindings.Binding.Callback
import IdlBindings.Hash.Xxh3

/-!
# Units of code

The bindings of a document are one unit of code: declarations of every converter, so that they can
be defined in any order, then the converters, the callbacks of each interface and the function that
makes the classes, and last the function that exports them. A unit is built from the model as a
value, and only its text is a matter of lines.

## Main definitions

* `UnitOptions`: what a unit depends on besides the model
* `BindingUnit`: the parts of a unit
* `BindingUnit.ofModel`: the unit for a model
* `BindingUnit.source`: its text
* `BindingUnit.unsupported`: the constructs without bindings
-/
namespace IdlBindings

/-- What a unit depends on besides the model. -/
structure UnitOptions where
  /-- The start of the name of the function that exports the classes. -/
  moduleName : String := "module"
  /-- The header that is included first. -/
  napiHeader : String := "js_native_api.h"
  /-- Headers that are included last. -/
  extraIncludes : List String := []
  /-- Whether the unit registers itself as a module. -/
  registerModule : Bool := false
  /-- The name of the document, for the comment at the top. -/
  sourceName : Option String := none
deriving DecidableEq, Repr

/-- The name of the support header. -/
def supportHeaderName : String := "webidl-napi.h"

/-! ## Type tags -/

/-- Sixteen hexadecimal digits. -/
def hexWord (w : UInt64) : String :=
  String.ofList ((List.range 16).reverse.map fun i => Nat.digitChar ((w.toNat >>> (4 * i)) % 16))

/-- Defines the tag by which objects of an interface are known. It only depends on the name. -/
def typeTagLine (owner : String) : String :=
  let tag := xxh3 owner.toUTF8.data
  "static const napi_type_tag " ++ typeTagName owner ++ " = \x7b 0x" ++ hexWord tag.low ++
    "ULL, 0x" ++ hexWord tag.high ++ "ULL \x7d;"

/-! ## Interfaces -/

/-- The bindings of an interface. -/
structure InterfaceBinding where
  name : String
  converter : ConverterPair
  callbacks : List Callback
  properties : List PropertyDescriptor
deriving Repr

namespace InterfaceBinding

def ofInterface (m : Model) (i : Interface) : InterfaceBinding where
  name := i.name
  converter := i.converterPair
  callbacks := i.callbacks m
  properties := i.properties

def factory (b : InterfaceBinding) : BindingName := .factory b.name

/-- All functions of an interface, in order. -/
def functions (b : InterfaceBinding) : List BindingName :=
  b.callbacks.map Callback.name ++ [b.factory]

/-- The function that makes the class. A class without properties has no table. -/
def factoryLines (b : InterfaceBinding) : List String :=
  let (count, table) :=
    if b.properties.isEmpty then ("0", "nullptr") else ("sizeof(props) / sizeof(*props)", "props")
  ["static napi_status",
    b.factory.text ++ "(",
    "    napi_env env,",
    "    napi_value* result) \x7b"] ++
    deeper ((if b.properties.isEmpty then [] else propertyLines b.properties ++ [""]) ++
      ["WEBIDL_NAPI_RETURN_IF_FAILED(napi_define_class(env, " ++ cString b.name ++
          ", NAPI_AUTO_LENGTH, " ++ (BindingName.constructor b.name).text ++ ", nullptr, " ++
          count ++ ", " ++ table ++ ", result));",
        "return WebIdlNapi::RegisterConstructor(env, " ++ cString b.name ++ ", *result);"]) ++
    ["\x7d"]

/-- The functions of an interface: its converter, its callbacks and its factory. -/
def paragraphs (b : InterfaceBinding) : List (List String) :=
  b.converter.lines :: b.callbacks.map Callback.lines ++ [b.factoryLines]

end InterfaceBinding

/-! ## Units -/

/-- The parts of a unit. -/
structure BindingUnit where
  options : UnitOptions
  typedefs : List ConverterPair
  enums : List ConverterPair
  dictionaries : List ConverterPair
  instantiations : List ConverterPair
  interfaces : List InterfaceBinding
deriving Repr

/-- Paragraphs with an empty line between them. -/
def joinParagraphs : List (List String) → List String
  | [] => []
  | [p] => p
  | p :: ps => p ++ "" :: joinParagraphs ps

/-- The heading of a section. -/
def banner (title : String) : List String :=
  let rule := String.ofList (List.replicate 80 '/')
  [rule, "// " ++ title, rule]

/-- A section with its heading. -/
def sectionLines (title : String) (paragraphs : List (List String)) : List String :=
  joinParagraphs (banner title :: paragraphs)

namespace BindingUnit

def ofModel (m : Model) (options : UnitOptions) : BindingUnit where
  options := options
  typedefs := m.typedefs.map (Typedef.converterPair m)
  enums := m.enums.map Enumeration.converterPair
  dictionaries := m.dictionaries.map (Dictionary.converterPair m)
  instantiations := m.instantiations.map Instantiation.converterPair
  interfaces := m.interfaces.map (InterfaceBinding.ofInterface m)

/-- The converters in the order of their declarations. -/
def declared (u : BindingUnit) : List ConverterPair :=
  u.enums ++ u.dictionaries ++ u.interfaces.map InterfaceBinding.converter ++ u.instantiations ++
    u.typedefs

/-- The converters in the order of their definitions. -/
def defined (u : BindingUnit) : List ConverterPair :=
  u.typedefs ++ u.enums ++ u.dictionaries ++ u.instantiations ++
    u.interfaces.map InterfaceBinding.converter

/-- The constructs without bindings, in the order of the unit. -/
def unsupported (u : BindingUnit) : List String :=
  u.typedefs.filterMap (fun p => p.rule.stub?) ++
    u.dictionaries.filterMap (fun p => p.rule.stub?) ++
    u.interfaces.flatMap fun b => b.callbacks.flatMap fun c => c.body.stubs

/-! ## Text of a unit -/

/-- The comment at the top and the headers: first the one of the host, then the support header. -/
def prologueLines (o : UnitOptions) : List String :=
  let source := match o.sourceName with
    | some name => " from " ++ name
    | none => ""
  let headers := o.napiHeader :: supportHeaderName :: o.extraIncludes
  ["// Generated by napidl" ++ source ++ ". Do not edit.", ""] ++
    headers.map (fun h => "#include " ++ cString h) ++ [""]

/-- Type tags, then declarations. -/
def forwardParagraphs (u : BindingUnit) : List (List String) :=
  (if u.interfaces.isEmpty then [] else [u.interfaces.map fun b => typeTagLine b.name]) ++
    u.declared.map ConverterPair.declarationLines

/-- The variable that holds the class of an interface. -/
def classVariable (index : Nat) : String := "interface_" ++ toString index

/-- The name of the function that exports the classes. -/
def initName (o : UnitOptions) : String := o.moduleName ++ "_init"

/-- Makes every class before the object that exports them. -/
def exportLines (interfaces : List InterfaceBinding) : List String :=
  let indexed := interfaces.zipIdx
  let holders := indexed.map fun (_, i) => classVariable i
  ["napi_value " ++ String.intercalate ", " holders ++ ";", ""] ++
    indexed.map (fun (b, i) => napiCall (b.factory.text ++ "(env, &" ++ classVariable i ++ ")")) ++
    [""] ++
    propertyLines (indexed.map fun (b, i) =>
      PropertyDescriptor.ofExport b.name (classVariable i)) ++
    [""]

/-- The function that exports the classes. -/
def initLines (u : BindingUnit) : List String :=
  let none := u.interfaces.isEmpty
  ["napi_value",
    initName u.options ++ "(",
    "    napi_env env) \x7b"] ++
    deeper ((if none then [] else exportLines u.interfaces) ++
      ["napi_value exports;", napiCall "napi_create_object(env, &exports)"] ++
      (if none then []
        else [napiCall ("napi_define_properties(env, exports, " ++
          "sizeof(props) / sizeof(*props), props)")]) ++
      ["return exports;"]) ++
    ["\x7d"]

def registrationLines (o : UnitOptions) : List String :=
  ["NAPI_MODULE_INIT() \x7b", "  return " ++ initName o ++ "(env);", "\x7d"]

/-- A section for each converter. -/
def converterSections (title : ConverterPair → String) (pairs : List ConverterPair) :
    List (List String) :=
  pairs.map fun p => sectionLines (title p) [p.lines]

/-- All sections in order. -/
def sections (u : BindingUnit) : List (List String) :=
  [prologueLines u.options] ++
    (if u.declared.isEmpty then []
      else [sectionLines "Forward declarations" u.forwardParagraphs]) ++
    converterSections (fun p => "Typedef `" ++ p.native ++ "`") u.typedefs ++
    converterSections (fun p => "Enum `" ++ p.native ++ "`") u.enums ++
    converterSections (fun p => "Dictionary `" ++ p.native ++ "`") u.dictionaries ++
    converterSections (fun p => "Converter for `" ++ p.native ++ "`") u.instantiations ++
    u.interfaces.map (fun b => sectionLines ("Interface `" ++ b.name ++ "`") b.paragraphs) ++
    [sectionLines ("Init module `" ++ u.options.moduleName ++ "`") [u.initLines]] ++
    if u.options.registerModule then [registrationLines u.options] else []

/-- The text of a unit. -/
def source (u : BindingUnit) : String := codeText (joinParagraphs u.sections)

end BindingUnit
end IdlBindings
