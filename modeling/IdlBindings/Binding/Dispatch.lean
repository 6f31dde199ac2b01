import IdlBindings.Signature
import IdlBindings.Text.CString
import IdlBindings.Text.Lines

/-!
# Dispatch of overloads

A callback with several signatures holds a table of them. The support header picks the first that
accepts the arguments of a call, by the rule of `pick?`.

## Main definitions

* `signatureTable`: the table of signatures
* `dispatchLines`: the table, the search, and the report when no signature fits
-/
namespace IdlBindings

/-- The kind of value that a position expects. -/
def expectedText : Option ValueCategory → String
  | some category => category.text
  | none => "WebIdlNapi::kAnyValue"

/-- The row of a signature: what it expects, and how many arguments it needs. -/
def Candidate.row (c : Candidate) : String :=
  let expected := match c.expected with
    | [] => "\x7b\x7d"
    | es => "\x7b " ++ String.intercalate ", " (es.map expectedText) ++ " \x7d"
  "\x7b " ++ expected ++ ", " ++ toString c.required ++ " \x7d"

def signatureTable (candidates : List Candidate) : List String :=
  "static const WebIdlNapi::Signature webidl_napi_sigs[] = \x7b" ::
    deeper (commaLines (candidates.map Candidate.row)) ++ ["\x7d;"]

def dispatchLines (candidates : List Candidate) (name : String) : List String :=
  signatureTable candidates ++
    ["int sig_idx = -1;",
      "NAPI_CALL(env, WebIdlNapi::PickSignature(env, argc, argv, webidl_napi_sigs, " ++
        toString candidates.length ++ ", &sig_idx));",
      "if (sig_idx < 0) \x7b",
      "  WebIdlNapi::ThrowNoMatch(env, " ++ cString name ++ ");",
      "  return nullptr;",
      "\x7d"]

end IdlBindings
