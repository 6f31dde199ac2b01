import IdlBindings.Binding.Dispatch
import IdlBindings.Binding.Rule

/-!
# Statements of a callback

A callback is a block: steps one after the other, and choices between blocks. A choice with another
choice as its only alternative is written as one ladder.

## Main definitions

* `Action`: a step, with its `lines`
* `Test`: what a choice depends on
* `Block`: steps and choices
* `Block.lines`: the code of a block
-/
namespace IdlBindings

/-- The native function that a callback calls. -/
inductive Callee where
  | constructor (owner : String)
  | static (owner name : String)
  | method (name : String)
deriving DecidableEq, Repr

/-- A native value that a callback works with. -/
inductive NativeValue where
  | argument (index : Nat)
  | result
  /-- The value that an attribute is set to. -/
  | newValue
  /-- An attribute of the native object. -/
  | member (name : String)
  /-- A static attribute. -/
  | classMember (owner name : String)
deriving DecidableEq, Repr

def NativeValue.text : NativeValue → String
  | argument index => "native_arg_" ++ toString index
  | result => "ret"
  | newValue => "native_value"
  | member name => "native->" ++ name
  | classMember owner name => owner ++ "::" ++ name

/-- The call of a native function with the first arguments. -/
def Callee.call (callee : Callee) (passed : Nat) : String :=
  let arguments :=
    String.intercalate ", " ((List.range passed).map fun i => (NativeValue.argument i).text)
  match callee with
  | constructor owner => "new " ++ owner ++ "(" ++ arguments ++ ")"
  | static owner name => owner ++ "::" ++ name ++ "(" ++ arguments ++ ")"
  | method name => "native->" ++ name ++ "(" ++ arguments ++ ")"

/-- What a native variable starts with. -/
inductive Initializer where
  /-- The default of its type. -/
  | zero
  | code (text : String)
  | literal (value : String)
  | enumerator (enum ident : String)
deriving DecidableEq, Repr

/-- What follows the name of the variable. -/
def Initializer.text : Initializer → String
  | zero => "\x7b\x7d"
  | code text => " = " ++ text
  | literal value => " = " ++ cString value
  | enumerator enum ident => " = " ++ enum ++ "::" ++ ident

/-- What the host returns from a callback. -/
inductive Returned where
  | nothing
  | result
  | receiver
deriving DecidableEq, Repr

def Returned.text : Returned → String
  | nothing => "nullptr"
  | result => "js_ret"
  | receiver => "js_this"

/-- A step of a callback. -/
inductive Action where
  | blank
  | declareResult
  | declareReceiver
  /-- Declares the arguments and their number, with room for `size` of them. -/
  | declareArguments (size : Nat)
  /-- Reads the call, with its arguments and receiver where they are wanted. -/
  | readCall (arguments receiver : Bool)
  /-- Ignores arguments beyond a number. -/
  | capArguments (limit : Nat)
  | checkConstruct (owner : String)
  | declareNative (owner : String)
  /-- Takes the native object from a call that wraps an existing one. -/
  | takeExternal (owner : String)
  /-- Takes the native object of the receiver. -/
  | unwrap (owner : String)
  /-- Makes the receiver the owner of the native object, with slots for cached objects. -/
  | wrap (owner : String) (slots : Nat)
  /-- Picks a signature for the arguments. -/
  | pick (candidates : List Candidate) (name : String)
  | declareValue (native : String) (value : NativeValue) (start : Initializer)
  /-- Finds out whether an argument is present. -/
  | findArgument (index : Nat)
  /-- Converts an argument of the call. -/
  | toNative (converter : Converter) (index : Nat) (value : NativeValue)
  /-- Calls a function without a result. -/
  | call (callee : Callee) (passed : Nat)
  /-- Calls a function for its result. -/
  | callFor (native : String) (callee : Callee) (passed : Nat)
  | construct (owner : String) (passed : Nat)
  | toJs (converter : Converter) (value : NativeValue)
  /-- Settles a promise from now on. -/
  | finalize (value : NativeValue)
  | assign (target source : NativeValue)
  /-- Returns the cached object of a slot if there is one. -/
  | loadSlot (slot : Nat)
  | storeSlot (slot : Nat)
  | clearSlot (slot : Nat)
  /-- Gives up, naming a construct without bindings. -/
  | notImplemented (construct : String)
  | returnValue (value : Returned)
deriving Repr

/-- A call that throws in the host when it fails. -/
def napiCall (call : String) : String := "NAPI_CALL(env, " ++ call ++ ");"

def Action.lines : Action → List String
  | blank => [""]
  | declareResult => ["napi_value js_ret = nullptr;"]
  | declareReceiver => ["napi_value js_this;"]
  | declareArguments size =>
    ["size_t argc = " ++ toString size ++ ";", "napi_value argv[" ++ toString size ++ "];"]
  | readCall arguments receiver =>
    [napiCall ("napi_get_cb_info(env, info, " ++
      (if arguments then "&argc, argv, " else "nullptr, nullptr, ") ++
      (if receiver then "&js_this" else "nullptr") ++ ", nullptr)")]
  | capArguments limit =>
    ["if (argc > " ++ toString limit ++ ") argc = " ++ toString limit ++ ";"]
  | checkConstruct owner =>
    [napiCall ("WebIdlNapi::CheckConstructCall(env, info, " ++ cString owner ++ ")")]
  | declareNative owner => [owner ++ "* native = nullptr;"]
  | takeExternal owner =>
    [napiCall ("WebIdlNapi::TakeExternal<" ++ owner ++ ">(env, argc, argv, &" ++
      typeTagName owner ++ ", &native)")]
  | unwrap owner =>
    [napiCall ("WebIdlNapi::Unwrap<" ++ owner ++ ">(env, js_this, &" ++ typeTagName owner ++ ", " ++
      cString owner ++ ", &native)")]
  | wrap owner slots =>
    [napiCall ("WebIdlNapi::Wrap<" ++ owner ++ ">(env, js_this, &" ++ typeTagName owner ++
      ", native, " ++ toString slots ++ ")")]
  | pick candidates name => dispatchLines candidates name
  | declareValue native value start => [native ++ " " ++ value.text ++ start.text ++ ";"]
  | findArgument index =>
    let present := "have_arg_" ++ toString index
    ["bool " ++ present ++ " = false;",
      napiCall ("WebIdlNapi::HasArgument(env, argc, argv, " ++ toString index ++ ", &" ++
        present ++ ")")]
  | toNative converter index value =>
    [napiCall (converter.text ++ "::ToNative(env, argv[" ++ toString index ++ "], &" ++
      value.text ++ ")")]
  | call callee passed => [callee.call passed ++ ";"]
  | callFor native callee passed =>
    [native ++ " " ++ NativeValue.result.text ++ " = " ++ callee.call passed ++ ";"]
  | construct owner passed => ["native = " ++ (Callee.constructor owner).call passed ++ ";"]
  | toJs converter value =>
    [napiCall (converter.text ++ "::ToJS(env, " ++ value.text ++ ", &js_ret)")]
  | finalize value => [napiCall (value.text ++ ".Finalize(env)")]
  | assign target source => [target.text ++ " = " ++ source.text ++ ";"]
  | loadSlot slot =>
    [napiCall ("WebIdlNapi::GetSameObject(env, js_this, " ++ toString slot ++ ", &js_ret)"),
      "if (js_ret != nullptr) return js_ret;"]
  | storeSlot slot =>
    [napiCall ("WebIdlNapi::SetSameObject(env, js_this, " ++ toString slot ++ ", js_ret)")]
  | clearSlot slot =>
    [napiCall ("WebIdlNapi::ClearSameObject(env, js_this, " ++ toString slot ++ ")")]
  | notImplemented what => [throwNotImplemented what, "return nullptr;"]
  | returnValue value => ["return " ++ value.text ++ ";"]

/-- What a choice depends on. -/
inductive Test where
  /-- No native object has been taken from the call. -/
  | noNative
  | picked (index : Nat)
  | present (index : Nat)
deriving DecidableEq, Repr

def Test.text : Test → String
  | noNative => "native == nullptr"
  | picked index => "sig_idx == " ++ toString index
  | present index => "have_arg_" ++ toString index

/-- Steps and choices in order. -/
inductive Block where
  | done
  | act (action : Action) (rest : Block)
  | choose (test : Test) (yes no rest : Block)
deriving Repr

namespace Block

def ofActions : List Action → Block
  | [] => done
  | a :: as => act a (ofActions as)

/-- One block after the other. -/
def append : Block → Block → Block
  | done, b => b
  | act a rest, b => act a (rest.append b)
  | choose test yes no rest, b => choose test yes no (rest.append b)

instance : Append Block := ⟨append⟩

/-- A single choice. -/
def choice (test : Test) (yes no : Block) : Block := choose test yes no done

/-- The lines that follow the first case of a choice, given the code of its alternative. -/
def alternativeLines (no : Block) (code : List String) : List String :=
  match no, code with
  | done, _ => ["\x7d"]
  | choose _ _ _ done, first :: others => ("\x7d else " ++ first) :: others
  | _, _ => "\x7d else \x7b" :: deeper code ++ ["\x7d"]

/-- The code of a block. -/
def lines : Block → List String
  | done => []
  | act a rest => a.lines ++ rest.lines
  | choose test yes no rest =>
    ("if (" ++ test.text ++ ") \x7b") :: deeper yes.lines ++ alternativeLines no no.lines ++
      rest.lines

/-- All steps of a block in the order of the text. -/
def actions : Block → List Action
  | done => []
  | act a rest => a :: rest.actions
  | choose _ yes no rest => yes.actions ++ no.actions ++ rest.actions

@[simp] theorem append_eq (a b : Block) : a ++ b = a.append b := rfl

theorem actions_append (a b : Block) : (a ++ b).actions = a.actions ++ b.actions := by
  rw [append_eq]
  induction a with
  | done => rfl
  | act x rest ih => simp [append, actions, ih]
  | choose t y n rest _ _ ih => simp [append, actions, ih]

theorem lines_append (a b : Block) : (a ++ b).lines = a.lines ++ b.lines := by
  rw [append_eq]
  induction a with
  | done => rfl
  | act x rest ih => simp [append, lines, ih]
  | choose t y n rest _ _ ih => simp [append, lines, ih]

/-- The constructs that a block reports as ones without bindings. -/
def stubs (b : Block) : List String :=
  b.actions.filterMap fun
    | .notImplemented construct => some construct
    | _ => none

end Block
end IdlBindings
