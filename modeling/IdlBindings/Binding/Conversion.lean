import IdlBindings.Model.Resolve

/-!
# Conversions of types

A type with bindings has a native spelling and a class whose two functions convert values of it. An
alias has a class of its own, so that an alias of a scalar does not define the class of the scalar
again; every other type specializes the class template of the support header.

Wrapped types have no definition of their own in a document. Their classes are made where the types
are used, once for each native spelling.

## Main definitions

* `Converter`: the class that converts a type
* `Model.conversion?`: the native spelling and the class of a type
* `Model.instantiations`: the wrapped types of a document
-/
namespace IdlBindings

/-- A class with functions that convert to native values and back. -/
inductive Converter where
  /-- The class template of the support header at a native type. -/
  | specialization (native : String)
  /-- The class of an alias. -/
  | ofAlias (name : String)
deriving DecidableEq, Repr

def Converter.text : Converter → String
  | specialization type => "WebIdlNapi::Converter<" ++ type ++ ">"
  | ofAlias name => "webidl_napi_typedef_" ++ name

/-- How a type is spelled and converted. -/
structure Conversion where
  native : String
  converter : Converter
deriving DecidableEq, Repr

namespace NameKind

/-- The native spelling of a name. Only scalars are spelled differently. -/
def native : NameKind → String
  | scalar s => s.native
  | enumeration e => e.name
  | dictionary d => d.name
  | interface i => i.name
  | typedef t _ => t.name

def conversion : NameKind → Conversion
  | typedef t _ => ⟨t.name, .ofAlias t.name⟩
  | kind => ⟨kind.native, .specialization kind.native⟩

end NameKind

namespace TypeKind

def native : TypeKind → String
  | name kind => kind.native
  | generic wrapper _ kind => wrapper.template ++ "<" ++ kind.native ++ ">"

def conversion : TypeKind → Conversion
  | name kind => kind.conversion
  | kind => ⟨kind.native, .specialization kind.native⟩

/-- A promise, and not an alias of one. -/
def isPromise : TypeKind → Bool
  | generic .promise _ _ => true
  | _ => false

end TypeKind

/-- How a type is converted, or none for a type without bindings. -/
def Model.conversion? (m : Model) (t : IdlType) : Option Conversion :=
  (m.resolve? t).map TypeKind.conversion

/-! ## Wrapped types -/

/-- A wrapped type that a document uses. -/
structure Instantiation where
  native : String
  wrapper : Wrapper
  inner : String
  kind : NameKind
deriving Repr

def Instantiation.converter (i : Instantiation) : Converter := .specialization i.native

/-- The types of a member: arguments first, then the result. -/
def Member.types : Member → List IdlType
  | operation op => op.arguments.map Argument.type ++ op.result.toList
  | .attribute attr => [attr.type]
  | constructor ctor => ctor.arguments.map Argument.type

namespace Model

/-- All types that a document uses: those of aliases, of dictionaries, then of interfaces. -/
def usedTypes (m : Model) : List IdlType :=
  m.typedefs.map Typedef.target ++
    m.dictionaries.flatMap (fun d => d.fields.map Field.type) ++
    m.interfaces.flatMap fun i => i.members.flatMap Member.types

def instantiation? (m : Model) (t : IdlType) : Option Instantiation :=
  match m.resolve? t with
  | some (.generic wrapper inner kind) =>
    some ⟨(TypeKind.generic wrapper inner kind).native, wrapper, inner, kind⟩
  | _ => none

end Model

/-- Adds a wrapped type unless one is spelled the same. -/
def addInstantiation (found : List Instantiation) (i : Instantiation) : List Instantiation :=
  if found.any fun f => f.native == i.native then found else found ++ [i]

/-- The wrapped types of a document in the order of their first use. -/
def Model.instantiations (m : Model) : List Instantiation :=
  (m.usedTypes.filterMap m.instantiation?).foldl addInstantiation []

end IdlBindings
