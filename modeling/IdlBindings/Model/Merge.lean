import IdlBindings.Model
import IdlBindings.Text.Identifier

/-!
# Putting the parts of a document together

A definition may be spread over a document: a base, partial definitions that extend it, mixins that
are included into it, and ancestors that it inherits from. They are put together in that order, each
step appending to what is there. Interfaces, mixins and dictionaries go through the same steps, so
all three are seen as bodies with members of some kind.

## Main definitions

* `ModelFault`: why a document is inconsistent
* `Body`: a named list of members that may extend and inherit
* `Body.withPartials`, `Body.ancestors`, `Body.inherit`: the steps
* `Model.ofDefinitions`: the model of a document
-/
namespace IdlBindings

/-- The kinds of definitions that can inherit. -/
inductive InheritingKind where
  | interface
  | dictionary
deriving DecidableEq, Repr

def InheritingKind.text : InheritingKind → String
  | interface => "interface"
  | dictionary => "dictionary"

/-- Why a document has no model. -/
inductive ModelFault where
  | duplicateDefinition (name : String)
  /-- Two literals of an enumeration have the same enumerator. -/
  | enumeratorCollision (enum first second identifier : String)
  /-- A side of an includes statement is not defined. -/
  | unresolvedInclude (target mixin missing : String)
  | unresolvedAncestor (kind : InheritingKind) (name ancestor : String)
  /-- A definition inherits from itself. The names go from one of its heirs to the first name that
  comes up twice. -/
  | inheritanceCycle (kind : InheritingKind) (names : List String)
deriving DecidableEq, Repr

def ModelFault.message : ModelFault → String
  | duplicateDefinition name => "'" ++ name ++ "' is defined more than once"
  | enumeratorCollision enum first second identifier =>
    "Enum '" ++ enum ++ "' values \"" ++ first ++ "\" and \"" ++ second ++
      "\" both map to identifier '" ++ identifier ++ "'"
  | unresolvedInclude target mixin missing =>
    "Cannot include '" ++ mixin ++ "' into '" ++ target ++ "' because '" ++ missing ++
      "' was not found"
  | unresolvedAncestor kind name ancestor =>
    "Cannot find " ++ kind.text ++ " '" ++ ancestor ++ "' which is inherited by " ++ kind.text ++
      " '" ++ name ++ "'"
  | inheritanceCycle kind names =>
    "Inheritance cycle between " ++ kind.text ++ "s: " ++ String.intercalate " -> " names

/-! ## Enumerations -/

/-- Adds a literal to the values of an enumeration. A literal that is there already is left out. -/
def addEnumValue (enum : String) (values : List EnumValue) (literal : String) :
    Except ModelFault (List EnumValue) :=
  if values.any fun v => v.literal == literal then .ok values
  else
    let ident := enumIdentifier literal
    match values.find? fun v => v.ident == ident with
    | some first => .error (.enumeratorCollision enum first.literal literal ident)
    | none => .ok (values ++ [⟨literal, ident⟩])

/-- The values of an enumeration from its literals. -/
def enumValues (enum : String) (literals : List String) : Except ModelFault (List EnumValue) :=
  literals.foldlM (addEnumValue enum) []

def EnumDef.toEnumeration (d : EnumDef) : Except ModelFault Enumeration := do
  return ⟨d.name, ← enumValues d.name d.values⟩

/-! ## Bodies -/

/-- A definition that may be extended and may inherit. -/
structure Body (μ : Type) where
  name : String
  parent : Option String
  members : List μ
deriving DecidableEq, Repr

namespace Body

variable {μ : Type}

def find? (bodies : List (Body μ)) (name : String) : Option (Body μ) :=
  bodies.find? fun b => b.name == name

/-- Appends members to the body with a name. -/
def extend (bodies : List (Body μ)) (name : String) (members : List μ) : List (Body μ) :=
  bodies.map fun b => if b.name = name then { b with members := b.members ++ members } else b

/-- Extends the base of a partial definition, or makes the partial definition the base if there is
none. The parent of a partial definition only counts in the second case. -/
def addPartial (bodies : List (Body μ)) (part : Body μ) : List (Body μ) :=
  if (find? bodies part.name).isSome then extend bodies part.name part.members
  else bodies ++ [part]

/-- The bases with all partial definitions added. -/
def withPartials (bases parts : List (Body μ)) : List (Body μ) := parts.foldl addPartial bases

/-- The ancestors of `b`, nearest first, where `path` are the names from the start to `b`. Every
step adds a name of a body to the path, so the number of bodies bounds the steps. -/
def ancestorsFrom (kind : InheritingKind) (bodies : List (Body μ)) :
    Nat → List String → Body μ → Except ModelFault (List (Body μ))
  | 0, _, _ => .ok []
  | n + 1, path, b =>
    match b.parent with
    | none => .ok []
    | some parent =>
      if parent ∈ path then .error (.inheritanceCycle kind (path ++ [parent]))
      else
        match find? bodies parent with
        | none => .error (.unresolvedAncestor kind b.name parent)
        | some a => do return a :: (← ancestorsFrom kind bodies n (path ++ [parent]) a)

def ancestors (kind : InheritingKind) (bodies : List (Body μ)) (b : Body μ) :
    Except ModelFault (List (Body μ)) :=
  ancestorsFrom kind bodies (bodies.length + 1) [b.name] b

/-- Adds the members of ancestors that `adds` lets in, each judged by the members before it. -/
def inherit (adds : List μ → μ → Bool) (own inherited : List μ) : List μ :=
  inherited.foldl (fun members m => if adds members m then members ++ [m] else members) own

/-- All members of a body, inherited ones included. -/
def flatten (kind : InheritingKind) (adds : List μ → μ → Bool) (bodies : List (Body μ))
    (b : Body μ) : Except ModelFault (List μ) := do
  let above ← ancestors kind bodies b
  return inherit adds b.members (above.flatMap members)

end Body

/-- A constructor is never inherited, and a member only if none of the same kind has its name. -/
def Member.addsTo (members : List Member) : Member → Bool
  | .constructor _ => false
  | .operation op => !members.any fun m => (m.operation?.map Operation.name) == some op.name
  | .attribute attr => !members.any fun m => (m.attribute?.map Attribute.name) == some attr.name

/-- A field is inherited if none has its name. -/
def Field.addsTo (fields : List Field) (f : Field) : Bool := !fields.any fun g => g.name == f.name

/-! ## The classes of definitions -/

namespace Definition

/-- The name of a definition that may stand only once: anything but a partial definition or an
includes statement. -/
def declared? : Definition → Option String
  | interface d => if d.isPartial then none else some d.name
  | mixin d => if d.isPartial then none else some d.name
  | dictionary d => if d.isPartial then none else some d.name
  | enumeration d => some d.name
  | typedef d => some d.name
  | includes _ => none

/-- The interface of a definition that is marked partial or not, as `part` says. -/
def interfaceBody? (part : Bool) : Definition → Option (Body Member)
  | interface d => if d.isPartial = part then some ⟨d.name, d.parent, d.members⟩ else none
  | _ => none

def mixinBody? (part : Bool) : Definition → Option (Body Member)
  | mixin d => if d.isPartial = part then some ⟨d.name, none, d.members⟩ else none
  | _ => none

def dictionaryBody? (part : Bool) : Definition → Option (Body Field)
  | dictionary d => if d.isPartial = part then some ⟨d.name, d.parent, d.fields⟩ else none
  | _ => none

def enum? : Definition → Option EnumDef
  | enumeration d => some d
  | _ => none

def typedef? : Definition → Option Typedef
  | typedef d => some ⟨d.name, d.type⟩
  | _ => none

def includes? : Definition → Option IncludesDef
  | includes d => some d
  | _ => none

/-- Checks the names and enumerations of a document in its order, where `names` are declared. -/
def check : List String → List Definition → Except ModelFault Unit
  | _, [] => .ok ()
  | names, d :: ds =>
    match d.declared? with
    | none => check names ds
    | some name => do
      if name ∈ names then throw (.duplicateDefinition name)
      if let some enum := d.enum? then
        let _ ← enum.toEnumeration
      check (name :: names) ds

end Definition

/-- Appends the members of a mixin to an interface. -/
def applyIncludes (mixins interfaces : List (Body Member)) (d : IncludesDef) :
    Except ModelFault (List (Body Member)) :=
  match Body.find? mixins d.mixin with
  | none => .error (.unresolvedInclude d.target d.mixin d.mixin)
  | some mixin =>
    if (Body.find? interfaces d.target).isSome then
      .ok (Body.extend interfaces d.target mixin.members)
    else .error (.unresolvedInclude d.target d.mixin d.target)

/-- The interfaces of a document before inheritance. -/
def mergedInterfaces (ds : List Definition) : Except ModelFault (List (Body Member)) :=
  let mixins := Body.withPartials (ds.filterMap (Definition.mixinBody? false))
    (ds.filterMap (Definition.mixinBody? true))
  let interfaces := Body.withPartials (ds.filterMap (Definition.interfaceBody? false))
    (ds.filterMap (Definition.interfaceBody? true))
  (ds.filterMap Definition.includes?).foldlM (applyIncludes mixins) interfaces

/-- The dictionaries of a document before inheritance. -/
def mergedDictionaries (ds : List Definition) : List (Body Field) :=
  Body.withPartials (ds.filterMap (Definition.dictionaryBody? false))
    (ds.filterMap (Definition.dictionaryBody? true))

/-- The model of a document. -/
def Model.ofDefinitions (ds : List Definition) : Except ModelFault Model := do
  Definition.check [] ds
  let enums ← (ds.filterMap Definition.enum?).mapM EnumDef.toEnumeration
  let interfaces ← mergedInterfaces ds
  let dictionaries := mergedDictionaries ds
  return {
    interfaces := ← interfaces.mapM fun b => do
      return ⟨b.name, ← Body.flatten .interface Member.addsTo interfaces b⟩
    dictionaries := ← dictionaries.mapM fun b => do
      return ⟨b.name, ← Body.flatten .dictionary Field.addsTo dictionaries b⟩
    enums := enums
    typedefs := ds.filterMap Definition.typedef? }

end IdlBindings
