/-!
# Scalar types

The named types that are known without a definition, with their native spelling and the kind of host
value they convert from.

## Main definitions

* `ValueCategory`: the kinds of host values that a call can be told apart by
* `Scalar`: a scalar type, `Scalar.all` the table of them
-/
namespace IdlBindings

/-- The kind of a host value. -/
inductive ValueCategory where
  | undefined | null | boolean | number | string | symbol | object | function | external | bigint
deriving DecidableEq, Repr

namespace ValueCategory

def all : List ValueCategory :=
  [undefined, null, boolean, number, string, symbol, object, function, external, bigint]

theorem mem_all (v : ValueCategory) : v ∈ all := by cases v <;> decide

/-- The name of the category in generated code. -/
def text : ValueCategory → String
  | undefined => "napi_undefined"
  | null => "napi_null"
  | boolean => "napi_boolean"
  | number => "napi_number"
  | string => "napi_string"
  | symbol => "napi_symbol"
  | object => "napi_object"
  | function => "napi_function"
  | external => "napi_external"
  | bigint => "napi_bigint"

end ValueCategory

/-- The routine of the support header that a scalar converts with. -/
inductive ConverterFamily where
  | bool | int32 | uint32 | int64 | double | string | object | undefined
deriving DecidableEq, Repr

/-- A scalar type: its name in a document, its native spelling, the kind of host value it converts
from, and the routine that does it. -/
structure Scalar where
  name : String
  native : String
  category : ValueCategory
  family : ConverterFamily
deriving DecidableEq, Repr

namespace Scalar

/-- The table of scalar types. The string types share one native type, and so do the two names for
the type of no value. -/
def all : List Scalar :=
  [⟨"boolean", "bool", .boolean, .bool⟩,
    ⟨"byte", "int8_t", .number, .int32⟩,
    ⟨"octet", "uint8_t", .number, .uint32⟩,
    ⟨"short", "int16_t", .number, .int32⟩,
    ⟨"unsigned short", "uint16_t", .number, .uint32⟩,
    ⟨"long", "int32_t", .number, .int32⟩,
    ⟨"unsigned long", "uint32_t", .number, .uint32⟩,
    ⟨"long long", "int64_t", .number, .int64⟩,
    ⟨"unsigned long long", "uint64_t", .number, .int64⟩,
    ⟨"float", "float", .number, .double⟩,
    ⟨"unrestricted float", "float", .number, .double⟩,
    ⟨"double", "double", .number, .double⟩,
    ⟨"unrestricted double", "double", .number, .double⟩,
    ⟨"DOMString", "DOMString", .string, .string⟩,
    ⟨"ByteString", "DOMString", .string, .string⟩,
    ⟨"USVString", "DOMString", .string, .string⟩,
    ⟨"object", "object", .object, .object⟩,
    ⟨"undefined", "WebIdlNapi::Undefined", .undefined, .undefined⟩,
    ⟨"void", "WebIdlNapi::Undefined", .undefined, .undefined⟩]

/-- The scalar type with a name. -/
def find? (name : String) : Option Scalar := all.find? fun s => s.name == name

theorem name_of_find? {name : String} {s : Scalar} (h : find? name = some s) : s.name = name := by
  simpa using List.find?_some h

theorem mem_all_of_find? {name : String} {s : Scalar} (h : find? name = some s) : s ∈ all :=
  List.mem_of_find?_eq_some h

theorem find?_of_mem {s : Scalar} (h : s ∈ all) : find? s.name = some s := by
  have found : ∀ s ∈ all, find? s.name = some s := by decide
  exact found s h

end Scalar
end IdlBindings
