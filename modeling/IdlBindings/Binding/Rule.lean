import IdlBindings.Binding.Conversion
import IdlBindings.Binding.Property
import IdlBindings.Text.CString
import IdlBindings.Text.Lines

/-!
# Converter definitions

A converter is defined by two functions, to the native value and back. What they do follows from
the rule that the type is converted by.

## Main definitions

* `ConversionRule`: how values of a type are converted
* `ConverterPair`: a converter with its rule
* `ConverterPair.lines`: the code of its two functions
-/
namespace IdlBindings

/-- How values of a type are converted. -/
inductive ConversionRule where
  /-- Through a scalar, whose native type is cast to the alias. -/
  | cast (scalar : String)
  /-- As another type. -/
  | delegate (target : Converter)
  /-- One of a list of literals. -/
  | enumeration (e : Enumeration)
  /-- Member by member, each with its converter. -/
  | dictionary (fields : List (Field × Converter))
  /-- Only to the host, where the promise is settled by a converter. -/
  | promise (inner : String) (converter : Converter)
  /-- Element by element. -/
  | sequence (element : String) (converter : Converter)
  /-- By copying the native object that a host object wraps. -/
  | wrapped
  /-- Not at all: both functions throw, naming the construct. -/
  | stub (construct : String)
deriving Repr

/-- A converter, the native type and name it is for, and its rule. -/
structure ConverterPair where
  converter : Converter
  native : String
  rule : ConversionRule
deriving Repr

/-! ## Functions -/

/-- The name of the value that tags objects of an interface. -/
def typeTagName (owner : String) : String := "webidl_napi_type_tag_" ++ owner

/-- The head of the function to native values, without what follows its parameters. -/
def toNativeHead (c : Converter) (type : String) : List String :=
  ["inline napi_status",
    c.text ++ "::ToNative(",
    "    napi_env env,",
    "    napi_value val,",
    "    " ++ type ++ "* result)"]

/-- The head of the function to host values, without what follows its parameters. -/
def toJsHead (c : Converter) (type : String) : List String :=
  ["inline napi_status",
    c.text ++ "::ToJS(",
    "    napi_env env,",
    "    const " ++ type ++ "& val,",
    "    napi_value* result)"]

/-- The line that a specialization of a template starts with. -/
def Converter.marker : Converter → List String
  | specialization _ => ["template <>"]
  | ofAlias _ => []

/-- Appends to the last line. -/
def appendLast (lines : List String) (suffix : String) : List String :=
  match lines.getLast? with
  | some last => lines.dropLast ++ [last ++ suffix]
  | none => [suffix]

/-- A function with a body. -/
def functionLines (head body : List String) : List String :=
  appendLast head " \x7b" ++ deeper body ++ ["\x7d"]

/-- The check after a step that can fail. -/
def returnFailure : String := "if (status != napi_ok) return status;"

/-- The tests after the first. -/
def elseTestLines : List (String × String) → List String
  | [] => []
  | (condition, action) :: tests =>
    ["\x7d else if (" ++ condition ++ ") \x7b", "  " ++ action] ++ elseTestLines tests

/-- Tests in order, each with the statement for its case, then the statement if none holds. -/
def testLines : List (String × String) → String → List String
  | [], otherwise => [otherwise]
  | (condition, action) :: tests, otherwise =>
    ["if (" ++ condition ++ ") \x7b", "  " ++ action] ++ elseTestLines tests ++
      ["\x7d else \x7b", "  " ++ otherwise, "\x7d"]

/-! ## Enumerations -/

def enumToNativeLines (e : Enumeration) : List String :=
  let reject := "return WebIdlNapi::ThrowInvalidEnumValue(env, " ++ cString e.name ++ ", str_val);"
  let tests := e.values.map fun v =>
    ("str_val == " ++ cString v.literal, "*result = " ++ e.name ++ "::" ++ v.ident ++ ";")
  ["DOMString str_val;",
    "napi_status status = WebIdlNapi::Converter<DOMString>::ToNative(env, val, &str_val);",
    returnFailure,
    ""] ++
    testLines tests reject ++
    (if e.values.isEmpty then [] else ["return napi_ok;"])

def enumToJsLines (e : Enumeration) : List String :=
  let tests := e.values.map fun v =>
    ("val == " ++ e.name ++ "::" ++ v.ident, "literal = " ++ cString v.literal ++ ";")
  "const char* literal = nullptr;" ::
    testLines tests "return napi_invalid_arg;" ++
    (if e.values.isEmpty then []
      else ["return napi_create_string_utf8(env, literal, NAPI_AUTO_LENGTH, result);"])

/-! ## Dictionaries -/

/-- Reports that a required member is missing. -/
def throwMissing (dictionary field : String) : String :=
  "return WebIdlNapi::ThrowMissingMember(env, " ++ cString dictionary ++ ", " ++
    cString field ++ ");"

/-- Reads one member of a dictionary. -/
def readFieldLines (dictionary : String) (f : Field) (c : Converter) : List String :=
  ["",
    "\x7b",
    "  napi_value js_member;",
    "  status = napi_get_named_property(env, val, " ++ cString f.name ++ ", &js_member);",
    "  " ++ returnFailure,
    "",
    "  status = napi_typeof(env, js_member, &val_type);",
    "  " ++ returnFailure,
    "",
    "  if (val_type != napi_undefined) \x7b",
    "    status = " ++ c.text ++ "::ToNative(env, js_member, &(result->" ++ f.name ++ "));",
    "    " ++ returnFailure] ++
    (if f.required then ["  \x7d else \x7b", "    " ++ throwMissing dictionary f.name] else []) ++
    ["  \x7d", "\x7d"]

/-- Without a host object there are no members, which is fine unless one is required. -/
def dictionaryToNativeLines (name : String) (fields : List (Field × Converter)) : List String :=
  let absent := match fields.find? fun (f, _) => f.required with
    | some (f, _) => throwMissing name f.name
    | none => "return napi_ok;"
  ["napi_valuetype val_type;",
    "napi_status status = napi_typeof(env, val, &val_type);",
    returnFailure,
    "",
    "if (val_type == napi_undefined || val_type == napi_null) \x7b",
    "  " ++ absent,
    "\x7d",
    "if (val_type != napi_object) return napi_object_expected;"] ++
    fields.flatMap (fun (f, c) => readFieldLines name f c) ++
    ["", "return napi_ok;"]

/-- The variable that holds the host value of a member. -/
def propertyName (index : Nat) : String := "js_prop_" ++ toString index

def writeFieldLines (f : Field) (c : Converter) (index : Nat) : List String :=
  ["status = " ++ c.text ++ "::ToJS(env, val." ++ f.name ++ ", &" ++ propertyName index ++ ");",
    returnFailure]

def dictionaryToJsLines (fields : List (Field × Converter)) : List String :=
  let indexed := fields.zipIdx
  let properties := indexed.map fun ((f, _), i) =>
    PropertyDescriptor.ofField f.name (propertyName i)
  let holders := indexed.map fun (_, i) => propertyName i
  ["napi_value ret;",
    "napi_status status = napi_create_object(env, &ret);",
    returnFailure] ++
    (if fields.isEmpty then []
      else
        ["", "napi_value " ++ String.intercalate ", " holders ++ ";"] ++
          indexed.flatMap (fun ((f, c), i) => writeFieldLines f c i) ++
          [""] ++
          propertyLines properties ++
          ["status = napi_define_properties(env, ret, sizeof(props) / sizeof(*props), props);",
            returnFailure]) ++
    ["", "*result = ret;", "return napi_ok;"]

/-! ## Both functions of a rule -/

/-- Reports that a construct has no bindings. -/
def throwNotImplemented (construct : String) : String :=
  "WebIdlNapi::ThrowNotImplemented(env, " ++ cString construct ++ ");"

namespace ConversionRule

/-- The body of the function to native values. -/
def toNativeLines (type : String) : ConversionRule → List String
  | cast scalar =>
    [scalar ++ " native_val;",
      "napi_status status = " ++ (Converter.specialization scalar).text ++
        "::ToNative(env, val, &native_val);",
      returnFailure,
      "",
      "*result = static_cast<" ++ type ++ ">(native_val);",
      "return napi_ok;"]
  | delegate target => ["return " ++ target.text ++ "::ToNative(env, val, result);"]
  | enumeration e => enumToNativeLines e
  | dictionary fields => dictionaryToNativeLines type fields
  | promise inner _ =>
    ["return " ++ throwNotImplemented ("conversion of Promise<" ++ inner ++ "> to native")]
  | sequence element converter =>
    ["return WebIdlNapi::SequenceToNative<" ++ element ++ ">(env, val, &" ++ converter.text ++
      "::ToNative, result);"]
  | wrapped =>
    [type ++ "* native = nullptr;",
      "napi_status status = WebIdlNapi::Unwrap<" ++ type ++ ">(env, val, &" ++ typeTagName type ++
        ", " ++ cString type ++ ", &native);",
      returnFailure,
      "",
      "*result = *native;",
      "return napi_ok;"]
  | stub construct => ["return " ++ throwNotImplemented construct]

/-- The body of the function to host values. -/
def toJsLines (type : String) : ConversionRule → List String
  | cast scalar =>
    ["return " ++ (Converter.specialization scalar).text ++ "::ToJS(env, static_cast<" ++ scalar ++
      ">(val), result);"]
  | delegate target => ["return " ++ target.text ++ "::ToJS(env, val, result);"]
  | enumeration e => enumToJsLines e
  | dictionary fields => dictionaryToJsLines fields
  | promise _ converter => ["return val.Attach(env, &" ++ converter.text ++ "::ToJS, result);"]
  | sequence element converter =>
    ["return WebIdlNapi::SequenceToJS<" ++ element ++ ">(env, val, &" ++ converter.text ++
      "::ToJS, result);"]
  | wrapped =>
    ["return WebIdlNapi::NewExternalInstance<" ++ type ++ ">(env, " ++ cString type ++ ", &" ++
      typeTagName type ++ ", new " ++ type ++ "(val), result);"]
  | stub construct => ["return " ++ throwNotImplemented construct]

/-- The converters that the functions of a rule call. -/
def references : ConversionRule → List Converter
  | cast scalar => [.specialization scalar]
  | delegate target => [target]
  | enumeration _ => [.specialization "DOMString"]
  | dictionary fields => fields.map Prod.snd
  | promise _ converter => [converter]
  | sequence _ converter => [converter]
  | wrapped => []
  | stub _ => []

/-- The construct that the rule reports as one without bindings. -/
def stub? : ConversionRule → Option String
  | stub construct => some construct
  | _ => none

end ConversionRule

namespace ConverterPair

/-- The declaration of a converter, which has to stand before its first use. -/
def declarationLines (p : ConverterPair) : List String :=
  match p.converter with
  | .specialization _ =>
    p.converter.marker ++ appendLast (toNativeHead p.converter p.native) ";" ++ [""] ++
      p.converter.marker ++ appendLast (toJsHead p.converter p.native) ";"
  | .ofAlias _ =>
    ["struct " ++ p.converter.text ++ " \x7b",
      "  static napi_status ToNative(napi_env env, napi_value val, " ++ p.native ++ "* result);",
      "  static napi_status ToJS(napi_env env, const " ++ p.native ++ "& val, napi_value* result);",
      "\x7d;"]

/-- The two functions of a converter. -/
def lines (p : ConverterPair) : List String :=
  p.converter.marker ++
    functionLines (toNativeHead p.converter p.native) (p.rule.toNativeLines p.native) ++ [""] ++
    p.converter.marker ++
    functionLines (toJsHead p.converter p.native) (p.rule.toJsLines p.native)

end ConverterPair

/-! ## The rules of a model -/

/-- The first field without bindings makes a dictionary one without. -/
def Model.dictionaryRule (m : Model) (d : Dictionary) : ConversionRule :=
  match d.fields.find? fun f => (m.conversion? f.type).isNone with
  | some f =>
    .stub ("dictionary " ++ d.name ++ " member " ++ f.name ++ " of type " ++ f.type.text)
  | none =>
    .dictionary (d.fields.filterMap fun f => (m.conversion? f.type).map fun c => (f, c.converter))

/-- An alias of a scalar is cast; any other stands for its target. -/
def Model.typedefRule (m : Model) (t : Typedef) : ConversionRule :=
  match m.resolve? (.named t.name), m.conversion? t.target with
  | some (.name (.typedef _ (some s))), _ => .cast s.native
  | some (.name (.typedef _ none)), some target => .delegate target.converter
  | _, _ => .stub ("typedef " ++ t.target.text ++ " " ++ t.name)

def Instantiation.rule (i : Instantiation) : ConversionRule :=
  match i.wrapper with
  | .promise => .promise i.inner i.kind.conversion.converter
  | _ => .sequence i.kind.native i.kind.conversion.converter

def Typedef.converterPair (m : Model) (t : Typedef) : ConverterPair :=
  ⟨.ofAlias t.name, t.name, m.typedefRule t⟩

def Enumeration.converterPair (e : Enumeration) : ConverterPair :=
  ⟨.specialization e.name, e.name, .enumeration e⟩

def Dictionary.converterPair (m : Model) (d : Dictionary) : ConverterPair :=
  ⟨.specialization d.name, d.name, m.dictionaryRule d⟩

def Instantiation.converterPair (i : Instantiation) : ConverterPair :=
  ⟨i.converter, i.native, i.rule⟩

def Interface.converterPair (i : Interface) : ConverterPair :=
  ⟨.specialization i.name, i.name, .wrapped⟩

end IdlBindings
