import IdlBindings.Binding.Block
import IdlBindings.Binding.Call
import IdlBindings.Binding.Callback
import IdlBindings.Binding.Conversion
import IdlBindings.Binding.Dispatch
import IdlBindings.Binding.Property
import IdlBindings.Binding.Rule
import IdlBindings.Binding.SupportHeader
import IdlBindings.Binding.Unit
import IdlBindings.CommandLine
import IdlBindings.Compile
import IdlBindings.Config
import IdlBindings.Decimal.Shortest
import IdlBindings.Definition
import IdlBindings.Definition.Parser
import IdlBindings.Error
import IdlBindings.FileTree
import IdlBindings.Format
import IdlBindings.Hash.Xxh3
import IdlBindings.IdlType
import IdlBindings.Json.Number
import IdlBindings.Json.Reader
import IdlBindings.Json.Value
import IdlBindings.Main
import IdlBindings.Model
import IdlBindings.Model.Check
import IdlBindings.Model.Merge
import IdlBindings.Model.Resolve
import IdlBindings.Path
import IdlBindings.Scalar
import IdlBindings.Signature
import IdlBindings.Text.CString
import IdlBindings.Text.CharClass
import IdlBindings.Text.Identifier
import IdlBindings.Text.Lines
import IdlBindings.Text.Position
import IdlBindings.Text.Shown
import IdlBindings.Text.Unprintable
import IdlBindings.Token
import IdlBindings.Token.Lexer
import IdlBindings.Token.Parser
import IdlBindings.Tree.Decode
import IdlBindings.Tree.Definition
import IdlBindings.Tree.Fault
import IdlBindings.Tree.Node
import IdlBindings.Tree.Reader
import IdlBindings.Tree.Record
import IdlBindings.Proofs.Signature.Acceptance
import IdlBindings.Proofs.Signature.Shadowing
import IdlBindings.Proofs.Model.Body
import IdlBindings.Proofs.Model.Accepted
import IdlBindings.Proofs.Model.Lineage
import IdlBindings.Proofs.Model.Headers
import IdlBindings.Proofs.Model.Merging
import IdlBindings.Proofs.Model.Inheritance
import IdlBindings.Proofs.Model.Interleaving
import IdlBindings.Proofs.Model.Naming
import IdlBindings.Proofs.Model.Aliases
import IdlBindings.Proofs.Model.Resolution
import IdlBindings.Proofs.Model.Unbounded
import IdlBindings.Proofs.Binding.References
import IdlBindings.Proofs.Binding.Runs
import IdlBindings.Proofs.Binding.Closure
import IdlBindings.Proofs.Text.Quoting
import IdlBindings.Proofs.Text.LiteralValue
import IdlBindings.Proofs.Token.Decomposition
import IdlBindings.Proofs.Token.Layout
import IdlBindings.Proofs.Token.Reads
import IdlBindings.Proofs.Definition.Form
import IdlBindings.Proofs.Definition.PartParser
import IdlBindings.Proofs.Definition.FormParser
import IdlBindings.Proofs.Definition.Frontends
import IdlBindings.Proofs.Binding.Promises
import IdlBindings.Proofs.Model.Ancestry
import IdlBindings.Proofs.Model.Enumerators
import IdlBindings.Proofs.Model.Rejection
import IdlBindings.Proofs.Run.Paths
import IdlBindings.Proofs.Run.Trees
import IdlBindings.Proofs.Run.Disks
import IdlBindings.Proofs.Run.TreeRuns
import IdlBindings.Proofs.Run.AllOrNothing
import IdlBindings.Proofs.Binding.Scopes
import IdlBindings.Proofs.Binding.AliasedArguments
import IdlBindings.Proofs.Binding.ArgumentRoom
import IdlBindings.Proofs.Binding.FunctionNames
import IdlBindings.Proofs.Binding.TestLines
import IdlBindings.Proofs.Binding.EnumConversion
import IdlBindings.Proofs.Model.FieldInheritance
import IdlBindings.Proofs.Signature.Padding
import IdlBindings.Proofs.Run.Recompiling
import IdlBindings.Proofs.Token.Stray
import IdlBindings.Proofs.Token.Joining
import IdlBindings.Proofs.Run.Extensions
import IdlBindings.Proofs.Run.GeneratedText
import IdlBindings.Proofs.Run.InputKept
import IdlBindings.Proofs.Binding.StubText
import IdlBindings.Proofs.Binding.Report
import IdlBindings.Proofs.Definition.FaultPlaces
import IdlBindings.Proofs.Model.WrappedAliases
import IdlBindings.Proofs.Definition.TypeText
import IdlBindings.Proofs.Token.NumericLiterals
import IdlBindings.Proofs.Binding.TextDefaults
import IdlBindings.Proofs.Token.Lookahead
import IdlBindings.Proofs.Definition.Lookahead
import IdlBindings.Proofs.Definition.SkippedMembers
import IdlBindings.Proofs.Definition.NameSpelling
import IdlBindings.Proofs.Token.Progress
import IdlBindings.Proofs.Token.Unbounded
import IdlBindings.Proofs.Definition.Progress
import IdlBindings.Proofs.Definition.Unbounded
import IdlBindings.Proofs.Definition.Termination
import IdlBindings.Proofs.Binding.InstanceSteps
import IdlBindings.Proofs.Binding.Slots
import IdlBindings.Proofs.Binding.StaticDispatch
import IdlBindings.Proofs.Binding.SignatureTable
import IdlBindings.Proofs.Binding.CandidateOrder
import IdlBindings.Proofs.Text.Identifiers
