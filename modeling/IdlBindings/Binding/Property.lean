import IdlBindings.Text.CString
import IdlBindings.Text.Lines

/-!
# Property descriptors

The properties of a host object are described by a table. Each is a function, a pair of accessors or
a value, and has flags.

## Main definitions

* `BindingName`: the functions of an interface that the host calls
* `PropertyDescriptor`: a row of the table
* `propertyLines`: the table
-/
namespace IdlBindings

/-- A function of generated code that belongs to an interface. -/
inductive BindingName where
  | constructor (owner : String)
  | operation (owner name : String)
  | getter (owner name : String)
  | setter (owner name : String)
  /-- Makes the class of the interface. -/
  | factory (owner : String)
deriving DecidableEq, Repr

def BindingName.text : BindingName → String
  | constructor owner => "webidl_napi_interface_" ++ owner ++ "_constructor"
  | operation owner name => "webidl_napi_interface_" ++ owner ++ "_" ++ name
  | getter owner name => "webidl_napi_interface_" ++ owner ++ "_get_" ++ name
  | setter owner name => "webidl_napi_interface_" ++ owner ++ "_set_" ++ name
  | factory owner => "webidl_napi_create_interface_" ++ owner

inductive PropertyFlag where
  | writable | enumerable | configurable | static
deriving DecidableEq, Repr

def PropertyFlag.text : PropertyFlag → String
  | writable => "napi_writable"
  | enumerable => "napi_enumerable"
  | configurable => "napi_configurable"
  | static => "napi_static"

/-- Flags as one expression. More than one need a cast. -/
def flagsText : List PropertyFlag → String
  | [] => "napi_default"
  | [flag] => flag.text
  | flags =>
    "static_cast<napi_property_attributes>(" ++
      String.intercalate " | " (flags.map PropertyFlag.text) ++ ")"

/-- What a property holds. -/
inductive PropertyContent where
  | method (function : BindingName)
  | accessor (getter : BindingName) (setter : Option BindingName)
  /-- The value of a variable. -/
  | value (holder : String)
deriving DecidableEq, Repr

namespace PropertyContent

/-- The expressions for the function, the getter, the setter and the value. -/
def expressions : PropertyContent → List String
  | method f => [f.text, "nullptr", "nullptr", "nullptr"]
  | accessor g s => ["nullptr", g.text, (s.map BindingName.text).getD "nullptr", "nullptr"]
  | value v => ["nullptr", "nullptr", "nullptr", v]

end PropertyContent

/-- A property of a host object. -/
structure PropertyDescriptor where
  name : String
  content : PropertyContent
  flags : List PropertyFlag
deriving DecidableEq, Repr

namespace PropertyDescriptor

/-- A member of a dictionary, which behaves as if the host had assigned it. -/
def ofField (name holder : String) : PropertyDescriptor :=
  ⟨name, .value holder, [.writable, .enumerable, .configurable]⟩

/-- An exported class. -/
def ofExport (name holder : String) : PropertyDescriptor := ⟨name, .value holder, [.enumerable]⟩

def text (p : PropertyDescriptor) : String :=
  "\x7b " ++ String.intercalate ", "
    ([cString p.name, "nullptr"] ++ p.content.expressions ++ [flagsText p.flags, "nullptr"]) ++
    " \x7d"

end PropertyDescriptor

/-- The table of properties. -/
def propertyLines (properties : List PropertyDescriptor) : List String :=
  "napi_property_descriptor props[] = \x7b" ::
    deeper (commaLines (properties.map PropertyDescriptor.text)) ++ ["\x7d;"]

end IdlBindings
