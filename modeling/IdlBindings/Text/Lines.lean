/-!
# Lines of code

Generated code is put together as lists of lines. A line may be set deeper, which leaves empty lines
empty, and rows of a table are divided by commas.

## Main definitions

* `indentLines`: lines set deeper
* `commaLines`: rows with a comma after each but the last
* `codeText`: the text of lines, each ended by a line feed
-/
namespace IdlBindings

/-- Sets a line deeper. An empty line stays empty. -/
def indentLine (indent line : String) : String := if line = "" then "" else indent ++ line

def indentLines (indent : String) (lines : List String) : List String :=
  lines.map (indentLine indent)

/-- Lines one level deeper. -/
def deeper (lines : List String) : List String := indentLines "  " lines

/-- Rows of a table. A table without rows holds an empty line. -/
def commaLines : List String → List String
  | [] => [""]
  | [row] => [row]
  | row :: rows => (row ++ ",") :: commaLines rows

def codeText (lines : List String) : String := String.join (lines.map fun line => line ++ "\n")

end IdlBindings
