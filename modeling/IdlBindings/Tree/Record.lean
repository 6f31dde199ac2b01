import IdlBindings.Tree.Fault

/-!
# Decoding nodes with fields

A node is written as an object, or as a list of its fields in their declared order. Either way the
fields are decoded in the order in which they are written, and the first that does not fit rejects
the node; a field that is needed and not given is noticed after all others, in declared order.

A `Record` is built from single fields, as an applicative functor. It keeps what has been decoded so
far in a state of its own, one place per field, so that a node is decoded in one pass whatever the
order of its fields.

## Main definitions

* `Decoder`: from a JSON value to a part of a tree
* `Record`: the fields of a node and how they combine
* `Record.decode`: a node from its value
* `splitTag`: a node whose tag tells its kind
-/
namespace IdlBindings

/-- Decodes a part of a tree. -/
abbrev Decoder (α : Type) := Json.Value → Except TreeFault α

namespace Decoder

def mismatch {α : Type} (v : Json.Value) (expected : Expected) : Except TreeFault α :=
  .error (.mismatch (.ofValue v) expected)

def string : Decoder String
  | .string s => .ok s
  | v => mismatch v .string

def bool : Decoder Bool
  | .bool b => .ok b
  | v => mismatch v .boolean

/-- Any value, as it is. -/
def free : Decoder Json.Value := .ok

def list {α : Type} (item : Decoder α) : Decoder (List α)
  | .array items => items.mapM item
  | v => mismatch v .sequence

/-- A null stands for an absent part. -/
def nullable {α : Type} (part : Decoder α) : Decoder (Option α)
  | .null => .ok none
  | v => (part v).map some

end Decoder

/-- The fields of a node, with the parts decoded so far in a state. -/
structure Record (α : Type) where
  /-- The names of the fields in declared order. -/
  fields : List String
  State : Type
  empty : State
  /-- Decodes a field into its place; none for a name that is no field. -/
  set : State → String → Json.Value → Option (Except TreeFault State)
  /-- The node, or the name of a field that is missing. -/
  finish : State → Except String α

namespace Record

variable {α β : Type}

/-- One field, and what stands for it when it is not given, if it may be left out. -/
def field (name : String) (part : Decoder α) (fallback : Option α) : Record α where
  fields := [name]
  State := Option α
  empty := none
  set state key v :=
    if key = name then
      match state with
      | some _ => some (.error (.duplicateField name))
      | none => some ((part v).map some)
    else none
  finish
    | some a => .ok a
    | none =>
      match fallback with
      | some a => .ok a
      | none => .error name

def mandatory (name : String) (part : Decoder α) : Record α := field name part none

def defaulted (name : String) (part : Decoder α) (fallback : α) : Record α :=
  field name part (some fallback)

/-- A node with no fields. -/
def const (a : α) : Record α where
  fields := []
  State := Unit
  empty := ()
  set _ _ _ := none
  finish _ := .ok a

/-- The fields of both, the first ones first. -/
def seq (f : Record (α → β)) (r : Record α) : Record β where
  fields := f.fields ++ r.fields
  State := f.State × r.State
  empty := (f.empty, r.empty)
  set state key v :=
    match f.set state.1 key v with
    | some result => some (result.map fun s => (s, state.2))
    | none => (r.set state.2 key v).map fun result => result.map fun s => (state.1, s)
  finish state := do
    let g ← f.finish state.1
    let a ← r.finish state.2
    return g a

instance : Applicative Record where
  pure := const
  seq f r := f.seq (r ())

/-- Decodes given fields in the order in which they are given; a name that is no field is ignored.
-/
def setAll (r : Record α) (given : List (String × Json.Value)) : Except TreeFault r.State :=
  given.foldlM (fun state (key, v) => (r.set state key v).getD (.ok state)) r.empty

/-- A node called `name`. -/
def decode (name : String) (r : Record α) : Decoder α
  | .object entries => do
    let state ← r.setAll entries
    match r.finish state with
    | .ok a => .ok a
    | .error missing => .error (.missingField missing)
  | .array items => do
    let state ← r.setAll (r.fields.zip items)
    match r.finish state with
    | .ok a =>
      if items.length ≤ r.fields.length then .ok a
      else .error (.tooMany items.length r.fields.length)
    | .error missing => .error (.tooFew (r.fields.idxOf missing) name r.fields.length)
  | v => Decoder.mismatch v (.record name)

end Record

/-! ## Tags -/

/-- The name of the field that tells the kind of a node. -/
def tagField : String := "type"

/-- The kind that a word names. -/
def tagOfText {τ : Type} (tags : List (String × τ)) (word : String) : Except TreeFault τ :=
  match tags.lookup word with
  | some tag => .ok tag
  | none => .error (.unknownTag word (tags.map Prod.fst))

/-- The kind that a decoded tag names. A number counts the known tags from zero. -/
def tagOfValue {τ : Type} (tags : List (String × τ)) : Decoder τ
  | .string word => tagOfText tags word
  | .number (.integer (.ofNat n)) =>
    match tags[n]? with
    | some (_, tag) => .ok tag
    | none => .error (.unknownTagIndex n tags.length)
  | v => Decoder.mismatch v .tag

/-- Takes the tag out of the fields of a node. -/
def splitTag {τ : Type} (name : String) (tags : List (String × τ)) : Decoder (τ × Json.Value)
  | .object entries => do
    let (tag, others) ← entries.foldlM
      (fun ((tag, others) : Option τ × List (String × Json.Value)) (key, v) =>
        if key = tagField then
          match tag with
          | some _ => .error (.duplicateField tagField)
          | none => do return (some (← tagOfValue tags v), others)
        else return (tag, (key, v) :: others))
      (none, [])
    match tag with
    | some tag => return (tag, .object others.reverse)
    | none => throw (.missingField tagField)
  | .array [] => .error (.missingField tagField)
  | .array (tag :: rest) => do return (← tagOfValue tags tag, .array rest)
  | v => Decoder.mismatch v (.tagged name)

/-- The fields of a node that is told by its tag alone. Written as an object it may have any. -/
def noFields : Decoder Unit
  | .array items => if items.isEmpty then .ok () else .error (.tooMany items.length 0)
  | _ => .ok ()

end IdlBindings
