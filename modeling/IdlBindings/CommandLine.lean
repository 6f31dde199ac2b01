import IdlBindings.Compile

/-!
# The command line

A command line is read argument by argument. An option with a value takes it from the same argument
or from the next one, unless that looks like an option itself; short options without values can be
put together. After a double dash every argument is the document.

Reading stops at the first fault, and also at the first demand for help or the version, whatever
follows.

## Main definitions

* `Switch`: the options
* `Arguments`: what a command line gives
* `Request.ofArguments`: the run it asks for, or why there is none
* `Request.perform`, `Outcome`: the run, and what it prints
-/
namespace IdlBindings

/-! ## Options -/

/-- Options with a value. -/
inductive ValueOption where
  | output | extraInclude | napiHeader | moduleName | format
deriving DecidableEq, Repr

/-- Options without a value. -/
inductive Flag where
  | registerModule | writeSupportHeader | check | watch | includeDir | verbose | help | version
deriving DecidableEq, Repr

inductive Switch where
  | value (option : ValueOption)
  | flag (flag : Flag)
deriving DecidableEq, Repr

namespace Switch

def longNames : List (String × Switch) :=
  [("output", .value .output),
    ("include", .value .extraInclude),
    ("napi-header", .value .napiHeader),
    ("module-name", .value .moduleName),
    ("format", .value .format),
    ("register-module", .flag .registerModule),
    ("write-support-header", .flag .writeSupportHeader),
    ("check", .flag .check),
    ("watch", .flag .watch),
    ("include-dir", .flag .includeDir),
    ("verbose", .flag .verbose),
    ("help", .flag .help),
    ("version", .flag .version)]

def shortNames : List (Char × Switch) :=
  [('o', .value .output),
    ('i', .value .extraInclude),
    ('n', .value .napiHeader),
    ('I', .flag .includeDir),
    ('v', .flag .verbose),
    ('h', .flag .help),
    ('V', .flag .version)]

/-- The option as failures name it. -/
def text (s : Switch) : String :=
  match longNames.find? fun (_, other) => other == s with
  | some (name, _) => "--" ++ name
  | none => ""

end Switch

/-! ## Faults -/

/-- What is wrong with a command line. -/
inductive UsageFault where
  | unknownOption (text : String)
  | unexpectedArgument (text : String)
  | missingValue (option : ValueOption)
  | unwantedValue (flag : Flag)
  | repeated (option : Switch)
  | emptyPath
  | badFormat (name : String)
  /-- Checking and watching exclude each other. -/
  | checkWithWatch
  | missingInput
deriving DecidableEq, Repr

def UsageFault.message : UsageFault → String
  | unknownOption text => "unexpected argument '" ++ text ++ "' found"
  | unexpectedArgument text => "unexpected argument '" ++ text ++ "' found"
  | missingValue option =>
    "a value is required for '" ++ (Switch.value option).text ++ "' but none was supplied"
  | unwantedValue flag => "unexpected value for '" ++ (Switch.flag flag).text ++ "' found"
  | repeated option => "the argument '" ++ option.text ++ "' cannot be used multiple times"
  | emptyPath => "a value is required for a path but none was supplied"
  | badFormat name => "invalid value '" ++ name ++ "' for '" ++ (Switch.value .format).text ++ "'"
  | checkWithWatch =>
    "the argument '" ++ (Switch.flag .check).text ++ "' cannot be used with '" ++
      (Switch.flag .watch).text ++ "'"
  | missingInput => "the following required arguments were not provided: <INPUT>"

/-- Why reading a command line stops early. -/
inductive Stop where
  | help
  | version
  | fault (fault : UsageFault)
deriving DecidableEq, Repr

/-! ## Arguments -/

/-- What a command line gives. -/
structure Arguments where
  input : Option Path := none
  output : Option Path := none
  includes : List String := []
  napiHeader : Option String := none
  moduleName : Option String := none
  format : Option SourceFormat := none
  flags : List Flag := []
deriving DecidableEq, Repr

namespace Arguments

/-- A setting that may be given once. -/
def once {α : Type} (option : ValueOption) (old : Option α) (new : α) : Except Stop (Option α) :=
  if old.isSome then .error (.fault (.repeated (.value option))) else .ok (some new)

/-- A path, which may not be empty. -/
def pathOf (text : String) : Except Stop Path :=
  if text = "" then .error (.fault .emptyPath) else .ok ⟨text⟩

def formatOf (name : String) : Except Stop SourceFormat :=
  (SourceFormat.ofName name).mapError fun _ => .fault (.badFormat name)

/-- Gives an option its value. Only includes may be repeated. -/
def setValue (a : Arguments) (option : ValueOption) (value : String) : Except Stop Arguments := do
  match option with
  | .output => return { a with output := ← once option a.output (← pathOf value) }
  | .extraInclude => return { a with includes := a.includes ++ [value] }
  | .napiHeader => return { a with napiHeader := ← once option a.napiHeader value }
  | .moduleName => return { a with moduleName := ← once option a.moduleName value }
  | .format => return { a with format := ← once option a.format (← formatOf value) }

def setFlag (a : Arguments) (flag : Flag) : Except Stop Arguments :=
  match flag with
  | .help => .error .help
  | .version => .error .version
  | _ =>
    if flag ∈ a.flags then .error (.fault (.repeated (.flag flag)))
    else .ok { a with flags := a.flags ++ [flag] }

/-- Takes an argument for the document. There is only one. -/
def setInput (a : Arguments) (text : String) : Except Stop Arguments := do
  if a.input.isSome then throw (.fault (.unexpectedArgument text))
  return { a with input := some (← pathOf text) }

end Arguments

/-! ## Reading -/

/-- The state of reading: what has been read, an option that waits for its value, and whether a
double dash has been met. -/
structure Reading where
  arguments : Arguments := {}
  pending : Option ValueOption := none
  onlyInput : Bool := false
deriving DecidableEq, Repr

namespace Reading

def setValue (r : Reading) (option : ValueOption) (value : String) : Except Stop Reading := do
  return { r with arguments := ← r.arguments.setValue option value, pending := none }

def setFlag (r : Reading) (flag : Flag) : Except Stop Reading := do
  return { r with arguments := ← r.arguments.setFlag flag }

def setInput (r : Reading) (text : String) : Except Stop Reading := do
  return { r with arguments := ← r.arguments.setInput text }

/-- Reads short options. What follows one with a value is its value, after an equals sign if there
is one. -/
def readShort (r : Reading) : List Char → Except Stop Reading
  | [] => .ok r
  | c :: cs =>
    match Switch.shortNames.lookup c with
    | none => .error (.fault (.unknownOption (String.ofList ['-', c])))
    | some (.flag flag) => do (← r.setFlag flag).readShort cs
    | some (.value option) =>
      match cs with
      | [] => .ok { r with pending := some option }
      | '=' :: value => r.setValue option (String.ofList value)
      | value => r.setValue option (String.ofList value)

/-- Reads a long option, with a value after an equals sign if there is one. -/
def readLong (r : Reading) (text : List Char) : Except Stop Reading :=
  let name := String.ofList (text.takeWhile fun c => c != '=')
  match Switch.longNames.lookup name, text.dropWhile fun c => c != '=' with
  | none, _ => .error (.fault (.unknownOption ("--" ++ name)))
  | some (.flag flag), [] => r.setFlag flag
  | some (.flag flag), _ => .error (.fault (.unwantedValue flag))
  | some (.value option), [] => .ok { r with pending := some option }
  | some (.value option), _ :: value => r.setValue option (String.ofList value)

/-- The argument starts like an option. A single dash does not. -/
def looksLikeOption (text : String) : Bool :=
  match text.toList with
  | '-' :: _ :: _ => true
  | _ => false

/-- Reads one argument. -/
def readArgument (r : Reading) (text : String) : Except Stop Reading :=
  if r.onlyInput then r.setInput text
  else
    match r.pending with
    | some option =>
      if looksLikeOption text then .error (.fault (.missingValue option))
      else r.setValue option text
    | none =>
      match text.toList with
      | ['-', '-'] => .ok { r with onlyInput := true }
      | '-' :: '-' :: long => r.readLong long
      | '-' :: c :: cs => r.readShort (c :: cs)
      | _ => r.setInput text

/-- What has been read, at the end of the command line. -/
def finish (r : Reading) : Except Stop Arguments :=
  match r.pending with
  | some option => .error (.fault (.missingValue option))
  | none => .ok r.arguments

end Reading

def Arguments.ofList (args : List String) : Except Stop Arguments := do
  (← args.foldlM Reading.readArgument {}).finish

/-! ## Requests -/

inductive Mode where
  | compile
  | check
  /-- Compiles again whenever the document changes. -/
  | watch
deriving DecidableEq, Repr

/-- What a command line asks for. -/
inductive Request where
  /-- Where the support header is. -/
  | includeDir
  | run (mode : Mode) (config : Config)
deriving DecidableEq, Repr

namespace Request

/-- The configuration for a document. -/
def configOf (a : Arguments) (input : Path) : Config where
  input := input
  output := a.output
  moduleName := a.moduleName
  napiHeader := a.napiHeader.getD "js_native_api.h"
  extraIncludes := a.includes
  format := a.format
  registerModule := .registerModule ∈ a.flags
  writeSupportHeader := .writeSupportHeader ∈ a.flags

/-- The request of well-formed arguments. -/
def ofArguments (a : Arguments) : Except Stop Request :=
  if .check ∈ a.flags ∧ .watch ∈ a.flags then .error (.fault .checkWithWatch)
  else if .includeDir ∈ a.flags then .ok .includeDir
  else
    match a.input with
    | none => .error (.fault .missingInput)
    | some input =>
      let mode := if .check ∈ a.flags then .check else if .watch ∈ a.flags then .watch else .compile
      .ok (.run mode (configOf a input))

/-- The request of a command line. -/
def ofList (args : List String) : Except Stop Request := do ofArguments (← Arguments.ofList args)

end Request

/-! ## Output -/

/-- What a command line prints on standard output, and its exit code. -/
structure Outcome where
  exitCode : Nat
  lines : List String
deriving DecidableEq, Repr

/-- Marks of lines: something made, something to heed, something to know. -/
def successLine (text : String) : String := "  ◉ " ++ text
def warningLine (text : String) : String := "  ▸ " ++ text
def infoLine (text : String) : String := "  ◇ " ++ text

/-- A number of things. -/
def countText (n : Nat) (singular plural : String) : String :=
  toString n ++ " " ++ if n = 1 then singular else plural

/-- The counts of a summary. Kinds that do not occur are left out. -/
def Summary.countsText (s : Summary) : String :=
  let parts := [(s.interfaces, "interface", "interfaces"),
    (s.dictionaries, "dictionary", "dictionaries"),
    (s.enums, "enum", "enums"), (s.typedefs, "typedef", "typedefs")].filter fun part => part.1 > 0
  if parts.isEmpty then "no definitions"
  else String.intercalate ", " (parts.map fun (n, singular, plural) => countText n singular plural)

/-- The report of a run. -/
def Summary.lines (s : Summary) : List String :=
  [infoLine s.countsText] ++
    s.written.map (fun p => successLine ("Wrote " ++ p.text)) ++
    s.warnings.map warningLine ++
    if s.unsupported.isEmpty then []
    else
      warningLine (toString s.unsupported.length ++
        " construct(s) will throw \"not implemented\":") ::
        s.unsupported.map fun construct => "      " ++ construct

/-- The last line of a run, which took some milliseconds. -/
def Mode.closing (mode : Mode) (elapsed : String) : String :=
  match mode with
  | .check => successLine "Looking good."
  | _ => infoLine ("Done in " ++ elapsed ++ "ms")

def versionText : String := "napidl 0.1.0"

def helpLines : List String :=
  ["Generates N-API C++ bindings from WebIDL",
    "",
    "Usage: napidl [OPTIONS] [INPUT]",
    "",
    "Arguments:",
    "  [INPUT]  WebIDL document (.idl text or webidl2 .json)",
    "",
    "Options:",
    "  -o, --output <OUTPUT>            Output file (default: the input path with a .cc extension)",
    "  -i, --include <INCLUDES>         " ++
      "Extra header included after the support header (repeatable)",
    "  -n, --napi-header <NAPI_HEADER>  N-API header included first [default: js_native_api.h]",
    "      --module-name <MODULE_NAME>  Prefix of the generated <module>_init function",
    "      --format <FORMAT>            Input format (default: picked from the input extension)",
    "      --register-module            Emit NAPI_MODULE_INIT() calling the init function",
    "      --write-support-header       Write webidl-napi.h next to the output file",
    "      --check                      Run the pipeline without writing anything",
    "      --watch                      Regenerate whenever the input changes",
    "  -I, --include-dir                Print the directory holding webidl-napi.h and exit",
    "  -v, --verbose                    Verbose logging",
    "  -h, --help                       Print help",
    "  -V, --version                    Print version"]

namespace Outcome

/-- The outcome of a command line that asks for no run. -/
def ofStop : Stop → Outcome
  | .help => ⟨0, helpLines⟩
  | .version => ⟨0, [versionText]⟩
  | .fault _ => ⟨2, []⟩

/-- The outcome of a run. A failed one prints nothing here. -/
def ofResult (mode : Mode) (elapsed : String) : Except CompileError Summary → Outcome
  | .ok summary => ⟨0, summary.lines ++ [mode.closing elapsed]⟩
  | .error _ => ⟨1, []⟩

end Outcome

/-- Performs one run. -/
def Mode.perform {m : Type → Type} [Monad m] (mode : Mode) (disk : Disk m) (c : Config) :
    ExceptT CompileError m Summary :=
  match mode with
  | .check => c.check disk
  | _ => c.compile disk

end IdlBindings
