import IdlBindings.Binding.Call

/-!
# Callbacks of an interface

The host reaches an interface through callbacks: its constructor, one for each name of an operation,
and the accessors of its attributes. A callback that is not static first takes the native object of
its receiver, which fails for an object that the interface did not make.

## Main definitions

* `Callback`: a function that the host calls
* `Interface.constructorCallback`, `Interface.operationCallback`, `Interface.getterCallback`,
  `Interface.setterCallback`: the callbacks
* `Interface.callbacks`: all of them, in order
* `Interface.properties`: how the class of the interface refers to them
-/
namespace IdlBindings

/-- A function that the host calls. -/
structure Callback where
  name : BindingName
  body : Block
deriving Repr

def Callback.lines (c : Callback) : List String :=
  ["static napi_value",
    c.name.text ++ "(",
    "    napi_env env,",
    "    napi_callback_info info) \x7b"] ++
    deeper c.body.lines ++ ["\x7d"]

/-- Reads the call with room for arguments. Without room there are no variables for them. -/
def readArguments (room : Nat) (receiver : Bool) : List Action :=
  (if receiver then [.declareReceiver] else []) ++
    if room = 0 then [.readCall false receiver]
    else [.declareArguments room, .readCall true receiver, .capArguments room]

/-- Takes the native object of the receiver. -/
def unwrapReceiver (owner : String) : List Action := [.declareNative owner, .unwrap owner]

/-- The length of the longest signature. -/
def maxArity (signatures : List (List Argument)) : Nat :=
  signatures.foldl (fun n arguments => max n arguments.length) 0

namespace Interface

/-! ## Constructor -/

/-- How failures name the constructor. -/
def constructorTitle (i : Interface) : String := i.name ++ " constructor"

def constructorCall (i : Interface) (c : Constructor) : Invocation where
  callee := .constructor i.name
  arguments := c.arguments
  result := none
  name := i.constructorTitle

/-- Makes a native object. Without a declared constructor it is made with no arguments. -/
def constructBlock (m : Model) (i : Interface) : Block :=
  if i.constructors.isEmpty then Block.ofActions [.construct i.name 0]
  else m.overloads (i.constructors.map i.constructorCall) i.constructorTitle

/-- The constructor. Called with an existing native object it adopts that one, which is why there is
always room for an argument. -/
def constructorCallback (m : Model) (i : Interface) : Callback where
  name := .constructor i.name
  body :=
    let arity := maxArity (i.constructors.map Constructor.arguments)
    let room := max arity 1
    Block.ofActions [.checkConstruct i.name, .blank,
      .declareReceiver, .declareArguments room, .readCall true true, .blank,
      .declareNative i.name, .takeExternal i.name] ++
    Block.choice .noNative (.act (.capArguments arity) (i.constructBlock m)) .done ++
    Block.ofActions [.blank, .wrap i.name i.slotCount, .returnValue .receiver]

/-! ## Operations -/

/-- Operations of one name are static if the first is. -/
def isStaticSet (ops : List Operation) : Bool := ops.head?.any Operation.isStatic

def operationCall (i : Interface) (isStatic : Bool) (title : String) (op : Operation) :
    Invocation where
  callee := if isStatic then .static i.name op.name else .method op.name
  arguments := op.arguments
  result := op.result
  name := title

/-- The callback for the operations of one name. -/
def operationCallback (m : Model) (i : Interface) (set : String × List Operation) : Callback where
  name := .operation i.name set.1
  body :=
    let isStatic := isStaticSet set.2
    let title := i.name ++ "." ++ set.1
    Block.ofActions (.declareResult ::
      readArguments (maxArity (set.2.map Operation.arguments)) (!isStatic) ++
      (if isStatic then [] else .blank :: unwrapReceiver i.name) ++ [.blank]) ++
    m.overloads (set.2.map (i.operationCall isStatic title)) title ++
    Block.ofActions [.blank, .returnValue .result]

/-! ## Attributes -/

/-- The native value of an attribute. -/
def attributeValue (i : Interface) (a : Attribute) : NativeValue :=
  if a.isStatic then .classMember i.name a.name else .member a.name

/-- Gives up on an attribute whose type has no bindings. -/
def attributeStub (i : Interface) (a : Attribute) : Block :=
  Block.ofActions [.notImplemented (i.name ++ "." ++ a.name ++ " of type " ++ a.type.text)]

/-- The steps of a getter: the cached object if the attribute has a slot, or else the value, which
then goes into the slot. -/
def getterActions (i : Interface) (a : Attribute) (kind : TypeKind) : List Action :=
  let value := i.attributeValue a
  let slot := (i.slot? a.name).toList
  [.declareResult] ++
    (if a.isStatic then []
      else readArguments 0 true ++ .blank :: unwrapReceiver i.name ++ [.blank]) ++
    slot.flatMap (fun s => [.loadSlot s, .blank]) ++
    [.toJs kind.conversion.converter value] ++
    (if kind.isPromise then [.finalize value] else []) ++
    slot.map .storeSlot ++
    [.returnValue .result]

def getterCallback (m : Model) (i : Interface) (a : Attribute) : Callback where
  name := .getter i.name a.name
  body := match m.resolve? a.type with
    | some kind => Block.ofActions (i.getterActions a kind)
    | none => i.attributeStub a

/-- The steps of a setter. What was cached is dropped. -/
def setterActions (i : Interface) (a : Attribute) (c : Conversion) : List Action :=
  readArguments 1 (!a.isStatic) ++ [.blank] ++
    (if a.isStatic then [] else unwrapReceiver i.name ++ [.blank]) ++
    [.declareValue c.native .newValue .zero, .toNative c.converter 0 .newValue,
      .assign (i.attributeValue a) .newValue] ++
    (i.slot? a.name).toList.map .clearSlot ++
    [.returnValue .nothing]

def setterCallback (m : Model) (i : Interface) (a : Attribute) : Callback where
  name := .setter i.name a.name
  body := match m.conversion? a.type with
    | some c => Block.ofActions (i.setterActions a c)
    | none => i.attributeStub a

/-- The accessors of an attribute. -/
def attributeCallbacks (m : Model) (i : Interface) (a : Attribute) : List Callback :=
  i.getterCallback m a :: if a.readonly then [] else [i.setterCallback m a]

/-- All callbacks: the constructor, the operations, then the attributes. -/
def callbacks (m : Model) (i : Interface) : List Callback :=
  i.constructorCallback m :: i.overloadSets.map (i.operationCallback m) ++
    i.attributes.flatMap (i.attributeCallbacks m)

/-! ## The class -/

def operationProperty (i : Interface) (set : String × List Operation) : PropertyDescriptor where
  name := set.1
  content := .method (.operation i.name set.1)
  flags := .enumerable :: if isStaticSet set.2 then [.static] else []

def attributeProperty (i : Interface) (a : Attribute) : PropertyDescriptor where
  name := a.name
  content := .accessor (.getter i.name a.name)
    (if a.readonly then none else some (.setter i.name a.name))
  flags := [.enumerable, .configurable] ++ if a.isStatic then [.static] else []

/-- The properties of the class: operations, then attributes. -/
def properties (i : Interface) : List PropertyDescriptor :=
  i.overloadSets.map i.operationProperty ++ i.attributes.map i.attributeProperty

/-! ## Members of the lists -/

variable {m : Model} {i : Interface} {a : Attribute} {c : Callback}

theorem mem_callbacks_iff :
    c ∈ i.callbacks m ↔
      c = i.constructorCallback m ∨ (∃ set ∈ i.overloadSets, c = i.operationCallback m set) ∨
        ∃ a ∈ i.attributes, c ∈ i.attributeCallbacks m a := by
  simp [callbacks, eq_comm]

end Interface
end IdlBindings
