import IdlBindings.Binding.Block

/-!
# Native calls

A signature is bound by converting each argument of the call, calling the native function, and
converting its result. An argument that is left out keeps the value its variable starts with.

A native function may have parameters with defaults of its own. Therefore arguments at the end that
are left out, and for which the document gives no value, are not passed at all: the call is a ladder
with one case for each number of arguments that can be present.

## Main definitions

* `Model.initializer`: the value of an argument that is left out
* `Invocation`: a signature with the function it calls
* `ladder`: the choice of how many arguments to pass
* `Model.invoke`, `Model.overloads`: the code for one signature, and for several
-/
namespace IdlBindings

/-! ## Defaults -/

/-- Drops quotes at both ends. -/
def trimQuotes (text : String) : String :=
  let isQuote := fun c => c == '"'
  String.ofList ((text.toList.dropWhile isQuote).reverse.dropWhile isQuote).reverse

/-- The initializer for a quoted default: the text for a scalar, the enumerator with that literal
for an enumeration. -/
def Model.quotedInitializer (m : Model) (t : IdlType) (value : String) : Initializer :=
  match m.resolve? t with
  | some (.name (.scalar _)) => .literal value
  | some (.name (.enumeration e)) =>
    match e.values.find? fun v => v.literal == value with
    | some v => .enumerator e.name v.ident
    | none => .zero
  | _ => .zero

/-- The initializer for a default as the document writes it. Empty lists, empty dictionaries and
null are what native variables start with anyway. -/
def Model.defaultInitializer (m : Model) (t : IdlType) (default : String) : Initializer :=
  if default = "[]" ∨ default = "\x7b\x7d" ∨ default = "null" then .zero
  else if default = "Infinity" then .code "std::numeric_limits<double>::infinity()"
  else if default = "-Infinity" then .code "-std::numeric_limits<double>::infinity()"
  else if default = "NaN" then .code "std::numeric_limits<double>::quiet_NaN()"
  else if default.toList.head? = some '"' then m.quotedInitializer t (trimQuotes default)
  else .code default

/-- The initializer of an argument. -/
def Model.initializer (m : Model) (a : Argument) : Initializer :=
  match a.default with
  | some default => m.defaultInitializer a.type default
  | none => .zero

/-! ## Arguments -/

/-- Converts the argument at an index. -/
def Model.argumentBlock (m : Model) (a : Argument) (c : Conversion) (index : Nat) : Block :=
  let convert := Block.ofActions [.toNative c.converter index (.argument index)]
  .act (.declareValue c.native (.argument index) (m.initializer a))
    (if a.optional then
      .act (.findArgument index) (Block.choice (.present index) convert .done)
    else convert)

/-- The argument is passed whether it is present or not: it has a value in any case. -/
def Model.isAlwaysPassed (m : Model) (a : Argument) : Bool :=
  !a.optional || a.default.isSome ||
    match m.resolve? a.type with
    | some (.name (.dictionary _)) => true
    | _ => false

/-- How many arguments every call passes: all up to the last that is always passed. -/
def Model.alwaysPassed (m : Model) (arguments : List Argument) : Nat :=
  (arguments.reverse.dropWhile fun a => !m.isAlwaysPassed a).length

/-- Passes the arguments up to the last that is present, and at least `least`; `more` may follow
those. -/
def ladder (callWith : Nat → Block) (least : Nat) : Nat → Block
  | 0 => callWith least
  | more + 1 =>
    Block.choice (.present (least + more)) (callWith (least + more + 1))
      (ladder callWith least more)

/-! ## Signatures -/

/-- A signature and the native function that it calls. -/
structure Invocation where
  callee : Callee
  arguments : List Argument
  result : Option IdlType
  /-- How failures name the function. -/
  name : String
deriving Repr

namespace Invocation

/-- The signature in the report of constructs without bindings. -/
def describe (call : Invocation) : String :=
  let types := call.arguments.map fun a => if a.variadic then a.type.text ++ "..." else a.type.text
  call.name ++ "(" ++ String.intercalate ", " types ++ ")"

/-- The arguments with their conversions, if all have bindings. A list of arguments of any length
has none. -/
def boundArguments? (m : Model) (call : Invocation) : Option (List (Argument × Conversion)) :=
  call.arguments.mapM fun a => if a.variadic then none else (m.conversion? a.type).map (Prod.mk a)

/-- The kind of the result, if it has bindings; the inner option is for no result. -/
def boundResult? (m : Model) (call : Invocation) : Option (Option TypeKind) :=
  match call.result with
  | none => some none
  | some t => (m.resolve? t).map some

/-- The call with a number of arguments and the conversion of its result. -/
def callBlock (call : Invocation) (result : Option TypeKind) (passed : Nat) : Block :=
  match call.callee, result with
  | .constructor owner, _ => Block.ofActions [.construct owner passed]
  | callee, none => Block.ofActions [.call callee passed]
  | callee, some kind =>
    Block.ofActions ([.callFor kind.conversion.native callee passed,
      .toJs kind.conversion.converter .result] ++
      if kind.isPromise then [.finalize .result] else [])

end Invocation

/-- The code for one signature. -/
def Model.invoke (m : Model) (call : Invocation) : Block :=
  match call.boundArguments? m, call.boundResult? m with
  | some bound, some result =>
    let least := m.alwaysPassed call.arguments
    (bound.zipIdx.map fun ((a, c), i) => m.argumentBlock a c i).foldr Block.append
      (ladder (call.callBlock result) least (call.arguments.length - least))
  | _, _ => Block.ofActions [.notImplemented call.describe]

/-- Goes to the signature that was picked. -/
def Model.pickedLadder (m : Model) : List (Invocation × Nat) → Block
  | [] => .done
  | (call, index) :: calls => Block.choice (.picked index) (m.invoke call) (m.pickedLadder calls)

/-- The code for the signatures of one name. A single one needs no choice. -/
def Model.overloads (m : Model) (calls : List Invocation) (name : String) : Block :=
  match calls with
  | [call] => m.invoke call
  | _ =>
    let candidates := calls.map fun call => Candidate.ofArguments m call.arguments
    Block.ofActions [.pick candidates name, .blank] ++ m.pickedLadder calls.zipIdx

end IdlBindings
