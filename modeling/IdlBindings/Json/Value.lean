import IdlBindings.Json.Number

/-!
# JSON values

An object keeps its entries in the order and the number in which they are written, so that a
repeated name can still be noticed. Written out, an object has its names in order and each name
once, with the value given last.

## Main definitions

* `Json.Value`: a value as it was read
* `Json.Value.compact`: its text without blanks
-/
namespace IdlBindings.Json

/-- A JSON value. Objects are lists of entries in the order of the text. -/
inductive Value where
  | null
  | bool (b : Bool)
  | number (n : Number)
  | string (s : String)
  | array (items : List Value)
  | object (entries : List (String × Value))
deriving Repr

/-- A character of a string literal. Only the quote, the backslash and control characters are
escaped. -/
def escapeChar (c : Char) : String :=
  if c = '"' then "\\\""
  else if c = '\\' then "\\\\"
  else if c = '\x08' then "\\b"
  else if c = '\t' then "\\t"
  else if c = '\n' then "\\n"
  else if c = '\x0c' then "\\f"
  else if c = '\r' then "\\r"
  else if c.toNat < 0x20 then
    "\\u00" ++ String.ofList [Nat.digitChar (c.toNat / 16), Nat.digitChar (c.toNat % 16)]
  else c.toString

def quote (s : String) : String := "\"" ++ String.join (s.toList.map escapeChar) ++ "\""

/-- Puts an entry in its place among entries in order of their names; an entry of the same name is
replaced. -/
def insertEntry {α : Type} (name : String) (a : α) : List (String × α) → List (String × α)
  | [] => [(name, a)]
  | (n, b) :: rest =>
    if name < n then (name, a) :: (n, b) :: rest
    else if name = n then (name, a) :: rest
    else (n, b) :: insertEntry name a rest

def sortEntries {α : Type} (entries : List (String × α)) : List (String × α) :=
  entries.foldl (fun sorted (name, a) => insertEntry name a sorted) []

namespace Value

mutual

/-- The text of a value without blanks. -/
def compact : Value → String
  | null => "null"
  | bool b => if b then "true" else "false"
  | number n => n.text
  | string s => quote s
  | array items => "[" ++ String.intercalate "," (compactItems items) ++ "]"
  | object entries =>
    let fields := (sortEntries (compactEntries entries)).map fun (name, text) =>
      quote name ++ ":" ++ text
    "\x7b" ++ String.intercalate "," fields ++ "\x7d"

def compactItems : List Value → List String
  | [] => []
  | v :: vs => v.compact :: compactItems vs

def compactEntries : List (String × Value) → List (String × String)
  | [] => []
  | (name, v) :: entries => (name, v.compact) :: compactEntries entries

end

end Value
end IdlBindings.Json
