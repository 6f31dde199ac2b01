/-!
# Paths

A path is text in which slashes divide names. Its first piece may anchor it: an empty one at the
root, a dot at the current directory. Of the pieces after the anchor, empty ones and dots say
nothing, so they do not count when they stand at the end; the last piece that counts names the file,
unless it is the step to a parent.

Everything before that piece keeps its spelling: the parent of `a//b.idl` is `a`, and with another
extension it is `a//b.cc`.

## Main definitions

* `Path`, `Path.anchor`, `Path.body`: a path and its pieces
* `Path.fileName?`, `Path.parent?`, `Path.stem?`, `Path.extension?`: its parts
* `Path.withExtension`, `Path.join`: paths made from it
-/
namespace IdlBindings

/-- A path, as it is written. -/
structure Path where
  text : String
deriving DecidableEq, Repr

/-- What a path starts from. -/
inductive Anchor where
  /-- The first name. -/
  | free
  | root
  /-- A leading dot. -/
  | here
deriving DecidableEq, Repr

namespace Path

/-- Divides at slashes. There is always a first piece. -/
def splitSlash : List Char → List Char × List (List Char)
  | [] => ([], [])
  | c :: cs =>
    let (first, rest) := splitSlash cs
    if c = '/' then ([], first :: rest) else (c :: first, rest)

/-- The pieces between slashes. -/
def pieces (p : Path) : List String :=
  let (first, rest) := splitSlash p.text.toList
  (first :: rest).map String.ofList

/-- Text that names nothing between two slashes. -/
def isBlankPiece (piece : String) : Bool := piece == "" || piece == "."

/-- Drops the pieces at the end that name nothing. -/
def dropBlankEnd (ps : List String) : List String := (ps.reverse.dropWhile isBlankPiece).reverse

def anchor (p : Path) : Anchor :=
  match p.pieces with
  | "" :: _ :: _ => .root
  | "." :: _ => .here
  | _ => .free

/-- The pieces after the anchor up to the last that counts. -/
def body (p : Path) : List String :=
  match p.anchor with
  | .free => dropBlankEnd p.pieces
  | _ => dropBlankEnd p.pieces.tail

/-- The path with an anchor and a body. -/
def ofBody : Anchor → List String → Path
  | .free, ps => ⟨String.intercalate "/" ps⟩
  | .root, ps => ⟨"/" ++ String.intercalate "/" ps⟩
  | .here, ps => ⟨String.intercalate "/" ("." :: ps)⟩

/-- The name that the path ends in. -/
def fileName? (p : Path) : Option String := p.body.getLast?.filter fun name => name != ".."

/-- The path without its last piece. The root has no parent, and neither has the empty path; the
parent of a path of one piece is empty. -/
def parent? (p : Path) : Option Path :=
  match p.body, p.anchor with
  | [], .here => some ⟨""⟩
  | [], _ => none
  | ps, a => some (ofBody a (dropBlankEnd ps.dropLast))

/-! ## Extensions -/

/-- Divides a name at its last dot. A dot in front does not count. -/
def splitName (name : String) : String × Option String :=
  let after := name.toList.reverse.takeWhile fun c => c != '.'
  let before := (name.toList.reverse.drop after.length).drop 1
  if before.isEmpty then (name, none)
  else (String.ofList before.reverse, some (String.ofList after.reverse))

/-- The file name without its extension. -/
def stem? (p : Path) : Option String := p.fileName?.map fun name => (splitName name).1

def extension? (p : Path) : Option String := p.fileName?.bind fun name => (splitName name).2

/-- The path with another file name. What follows the old one is dropped. -/
def withFileName (p : Path) (name : String) : Path := ofBody p.anchor (p.body.dropLast ++ [name])

/-- The path without the letters of its extension. -/
def cutExtension (p : Path) : Path :=
  match p.extension? with
  | some old => ⟨String.ofList (p.text.toList.take (p.text.toList.length - old.length))⟩
  | none => p

/-- The path with another extension. The old one is cut off first; if that leaves no file name, as
when the stem is a single dot, nothing takes its place. -/
def withExtension (p : Path) (extension : String) : Path :=
  match p.cutExtension.stem? with
  | none => p.cutExtension
  | some stem => p.cutExtension.withFileName (stem ++ "." ++ extension)

/-- The path of a file in a directory. -/
def join (dir : Path) (name : String) : Path :=
  match dir.text.toList.getLast? with
  | none => ⟨name⟩
  | some '/' => ⟨dir.text ++ name⟩
  | some _ => ⟨dir.text ++ "/" ++ name⟩

end Path
end IdlBindings
