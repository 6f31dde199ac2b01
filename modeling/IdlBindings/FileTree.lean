import IdlBindings.Compile

/-!
# Trees of files

A tree of files and directories in memory, with the operations of a `Disk`. An entry is known by its
location, the names on the way from the root. A path is walked name by name from the working
directory or the root: a step out of a file or out of nothing fails, also when the next step goes
back. Names and paths have a greatest length in bytes; that of a name is looked at when the step is
made, so an earlier step that fails comes first. A path that has left the working directory cannot
name it, so it does not come back.

Two things are left out. There are no links: a location has one way down to it from the root. And
operations fail only for what the tree holds and for how a path is written, never for want of room
or of permission. What has to hold on a machine with links, or one that fails for other reasons, is
said of every disk (`Proofs.Run.Disks`).

## Main definitions

* `FileTree`: files and directories
* `FileTree.walk`: the location that a path leads to
* `FileTree.read`, `FileTree.write`, `FileTree.makeDir`, `FileTree.makeDirs`, `FileTree.remove`:
  operations
* `FileTree.disk`: the operations that a run needs
* `FileTree.listing`: everything below the working directory
-/
namespace IdlBindings

/-- The names on the way from the root. -/
abbrev Location := List String

inductive Entry where
  | file (content : ByteArray)
  | directory

/-- Files and directories by location. The root needs no entry. -/
structure FileTree where
  entries : List (Location × Entry)
  /-- The working directory. -/
  home : Location

namespace FileTree

/-- An empty working directory inside another directory. Their names are empty, which no step of a
path is (`ne_empty_of_mem_steps`): paths start in the working directory and leave it upwards, but
none enters it by name. -/
def empty : FileTree := ⟨[([""], .directory), (["", ""], .directory)], ["", ""]⟩

def entry? (t : FileTree) (l : Location) : Option Entry :=
  if l = [] then some .directory else t.entries.lookup l

/-- Puts an entry at a location, in place of the one that is there or at the end. -/
def putEntry (l : Location) (e : Entry) : List (Location × Entry) → List (Location × Entry)
  | [] => [(l, e)]
  | (k, old) :: rest => if k = l then (l, e) :: rest else (k, old) :: putEntry l e rest

def set (t : FileTree) (l : Location) (e : Entry) : FileTree :=
  { t with entries := putEntry l e t.entries }

/-! ## Paths -/

/-- The steps of a path. -/
def steps (p : Path) : List String := p.pieces.filter fun piece => piece != ""

theorem ne_empty_of_mem_steps {p : Path} {name : String} (h : name ∈ steps p) : name ≠ "" := by
  simpa using (List.mem_filter.mp h).2

/-- The path ends in a slash, and so names a directory. -/
def endsInSlash (p : Path) : Bool := p.text.toList.getLast? == some '/'

/-- A step into a directory or out of it. The root is its own parent. -/
def step (l : Location) (name : String) : Location :=
  if name = "." then l else if name = ".." then l.dropLast else l ++ [name]

/-- The most bytes of a name. -/
def maxNameSize : Nat := 255

/-- The most bytes of a path. -/
def maxPathSize : Nat := 4095

/-- What is wrong with a path, whatever files there are. -/
def pathFault? (p : Path) : Option AccessFault :=
  if p.text.toList.contains '\x00' then some .nulInName
  else if p.text = "" then some .notFound
  else if maxPathSize < p.text.utf8ByteSize then some .nameTooLong
  else none

/-- The location after some steps. Each has to start from a directory; where the last one leads,
there may be nothing. -/
def walkFrom (t : FileTree) : Location → List String → Except AccessFault Location
  | l, [] => .ok l
  | l, name :: names =>
    match t.entry? l with
    | none => .error .notFound
    | some (.file _) => .error .notDirectory
    | some .directory =>
      if maxNameSize < name.utf8ByteSize then .error .nameTooLong
      else t.walkFrom (step l name) names

/-- The location that some steps of a path lead to. -/
def walkSteps (t : FileTree) (p : Path) (names : List String) : Except AccessFault Location :=
  match pathFault? p with
  | some fault => .error fault
  | none => t.walkFrom (if p.anchor = .root then [] else t.home) names

/-- The location that a path leads to. The empty path leads nowhere. -/
def walk (t : FileTree) (p : Path) : Except AccessFault Location := t.walkSteps p (steps p)

/-- Looks whether the steps before the last lead to a directory, from which the last can be made. -/
def walkToParent (t : FileTree) (p : Path) : Except AccessFault Unit := do
  match t.entry? (← t.walkSteps p (steps p).dropLast) with
  | none => throw .notFound
  | some (.file _) => throw .notDirectory
  | some .directory => return ()

/-- The path names a directory by its form: it ends in a step that only directories have. -/
def namesDirectory (p : Path) : Bool :=
  match (steps p).getLast? with
  | none => true
  | some name => name == "." || name == ".."

/-! ## Operations -/

def read (t : FileTree) (p : Path) : Except AccessFault ByteArray := do
  match t.entry? (← t.walk p) with
  | none => throw .notFound
  | some .directory => throw .isDirectory
  | some (.file content) => if endsInSlash p then throw .notDirectory else return content

/-- A file cannot be written where a directory is or where the path asks for one. -/
def write (t : FileTree) (p : Path) (content : ByteArray) : Except AccessFault FileTree := do
  t.walkToParent p
  if namesDirectory p || endsInSlash p then throw .isDirectory
  let l ← t.walk p
  match t.entry? l with
  | some .directory => throw .isDirectory
  | _ => return t.set l (.file content)

/-- Makes one directory, in a directory that exists. -/
def makeDir (t : FileTree) (p : Path) : Except AccessFault FileTree := do
  let l ← t.walk p
  if namesDirectory p then throw .alreadyExists
  match t.entry? l with
  | some _ => throw .alreadyExists
  | none => return t.set l .directory

def isDirectory (t : FileTree) (p : Path) : Bool :=
  match t.walk p with
  | .ok l => match t.entry? l with
    | some .directory => true
    | _ => false
  | .error _ => false

/-- Makes a directory unless it is there. -/
def ensureDir (t : FileTree) (p : Path) : Except AccessFault Unit × FileTree :=
  match t.makeDir p with
  | .ok t' => (.ok (), t')
  | .error fault => (if t.isDirectory p then .ok () else .error fault, t)

/-- Makes a directory, and those above it if it cannot be made for want of them. The number bounds
the directories above. -/
def makeDirsWithin (t : FileTree) : Nat → Path → Except AccessFault Unit × FileTree
  | 0, _ => (.ok (), t)
  | n + 1, p =>
    if p.text = "" || p.parent? == none then (.ok (), t)
    else
      match t.ensureDir p with
      | (.error .notFound, _) =>
        match t.makeDirsWithin n (p.parent?.getD ⟨""⟩) with
        | (.ok (), t') => t'.ensureDir p
        | failed => failed
      | done => done

/-- Makes a directory and those above it. A path has fewer parents than pieces. -/
def makeDirs (t : FileTree) (p : Path) : Except AccessFault Unit × FileTree :=
  t.makeDirsWithin (p.pieces.length + 1) p

/-- Removes an entry with all below it. -/
def remove (t : FileTree) (p : Path) : FileTree :=
  match t.walk p with
  | .ok l => { t with entries := t.entries.filter fun (k, _) => !(l.isPrefixOf k) }
  | .error _ => t

/-- The operations of a run. A failed write changes nothing. -/
def disk : Disk (StateM FileTree) where
  read p := do return (← get).read p
  makeDirs p := fun t => t.makeDirs p
  write p content := fun t =>
    match t.write p content with
    | .ok t' => (.ok (), t')
    | .error fault => (.error fault, t)

/-! ## Listing -/

/-- Puts a text into a sorted list. -/
def insertSorted (s : String) : List String → List String
  | [] => [s]
  | x :: xs => if s ≤ x then s :: x :: xs else x :: insertSorted s xs

/-- How a listing shows an entry: by its location below the working directory, directories with a
slash. -/
def shownEntry? (t : FileTree) : Location × Entry → Option String
  | (l, e) =>
    if t.home.isPrefixOf l ∧ t.home ≠ l then
      let text := String.intercalate "/" (l.drop t.home.length)
      match e with
      | .file _ => some text
      | .directory => some (text ++ "/")
    else none

/-- Everything below the working directory, sorted. -/
def listing (t : FileTree) : List String :=
  (t.entries.filterMap t.shownEntry?).foldr insertSorted []

end FileTree
end IdlBindings
