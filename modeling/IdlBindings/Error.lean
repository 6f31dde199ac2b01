import IdlBindings.Definition.Parser
import IdlBindings.Model.Check
import IdlBindings.Model.Merge
import IdlBindings.Path
import IdlBindings.Tree.Definition

/-!
# Failures of a run

A run fails for one of the causes that its stages know: the files, the text or tree of the document,
the model put together from it, or the check of that model. Each failure has a message, a code by
which it can be looked up, and for some a hint.

## Main definitions

* `AccessFault`: why a file cannot be read or written
* `CompileError`: why a run fails, with `message`, `code` and `help?`
-/
namespace IdlBindings

/-- Why a file or directory cannot be accessed. -/
inductive AccessFault where
  | notFound
  | alreadyExists
  | notDirectory
  | isDirectory
  /-- A name, or the path as a whole, has more bytes than the system takes. -/
  | nameTooLong
  /-- The path has a character that ends names for the system. -/
  | nulInName
  /-- A document that is not text. -/
  | notText
  /-- Any other reason, in the words of the system. -/
  | other (reason : String)
deriving DecidableEq, Repr

def AccessFault.message : AccessFault → String
  | notFound => "No such file or directory (os error 2)"
  | alreadyExists => "File exists (os error 17)"
  | notDirectory => "Not a directory (os error 20)"
  | isDirectory => "Is a directory (os error 21)"
  | nameTooLong => "File name too long (os error 36)"
  | nulInName => "file name contained an unexpected NUL byte"
  | notText => "stream did not contain valid UTF-8"
  | other reason => reason

/-- Why a run fails. -/
inductive CompileError where
  | access (path : Path) (fault : AccessFault)
  | malformedText (file : Path) (error : SyntaxError)
  | malformedTree (file : Path) (fault : TreeFault)
  | unknownFormat (name : String)
  | inconsistent (fault : ModelFault)
  | mixedStatic (fault : MixedStatic)
deriving Repr

namespace CompileError

def message : CompileError → String
  | access path fault => "Failed to access '" ++ path.text ++ "': " ++ fault.message
  | malformedText file error =>
    "Syntax error at " ++ file.text ++ ":" ++ error.position.text ++ ": " ++ error.fault.message
  | malformedTree file fault => "Invalid IDL tree in '" ++ file.text ++ "': " ++ fault.message
  | unknownFormat name => "Unsupported input format: " ++ name
  | inconsistent fault => fault.message
  | mixedStatic fault => fault.message

/-- The code of a failure, which does not depend on its details. -/
def code : CompileError → String
  | access _ _ => "napidl::io::error"
  | malformedText _ _ => "napidl::parse::syntax_error"
  | malformedTree _ _ => "napidl::parse::invalid_tree"
  | unknownFormat _ => "napidl::frontend::unsupported_format"
  | inconsistent (.unresolvedAncestor _ _ _) => "napidl::normalize::unresolved_ancestor"
  | inconsistent (.unresolvedInclude _ _ _) => "napidl::normalize::unresolved_include"
  | inconsistent (.inheritanceCycle _ _) => "napidl::normalize::inheritance_cycle"
  | inconsistent (.duplicateDefinition _) => "napidl::normalize::duplicate_definition"
  | inconsistent (.enumeratorCollision _ _ _ _) => "napidl::normalize::enum_identifier_collision"
  | mixedStatic _ => "napidl::validate::mixed_static_overload"

/-- A hint on how to mend the document or the call. -/
def help? : CompileError → Option String
  | malformedTree _ _ =>
    some "JSON input must be the array of definitions produced by webidl2's parse()"
  | unknownFormat _ => some "Supported formats are 'idl' and 'json'"
  | inconsistent (.unresolvedInclude _ _ _) =>
    some "Both sides of an includes statement must be declared in the same document"
  | inconsistent (.duplicateDefinition _) =>
    some "Use a partial definition to extend an existing one"
  | inconsistent (.enumeratorCollision _ _ _ _) =>
    some ("Native enumerator names are derived by upper-casing the first character and " ++
      "replacing " ++
      "non-alphanumerics with '_'")
  | _ => none

end CompileError
end IdlBindings
