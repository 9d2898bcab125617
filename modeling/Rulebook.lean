import Rulebook.Condition.Reader
import Rulebook.Condition.Scan
import Rulebook.Condition.Split
import Rulebook.Document.Basic
import Rulebook.Document.Check
import Rulebook.Document.Load
import Rulebook.Document.LoadError
import Rulebook.Document.Value
import Rulebook.Double.Display
import Rulebook.Double.Exact
import Rulebook.Double.Nearest
import Rulebook.Double.Shortest
import Rulebook.Evaluation.Evaluator
import Rulebook.Evaluation.Host
import Rulebook.Evaluation.Method
import Rulebook.Evaluation.Run
import Rulebook.Event
import Rulebook.Fault
import Rulebook.Form.Read
import Rulebook.Form.Tag
import Rulebook.Form.Write
import Rulebook.Lending.Accessors
import Rulebook.Lending.Reference
import Rulebook.Lending.Rules
import Rulebook.Malformed
import Rulebook.Primitive.Core
import Rulebook.Primitive.Registry
import Rulebook.Proofs.Condition.Scanning
import Rulebook.Rule.Application
import Rulebook.Rule.Basic
import Rulebook.Rule.Engine
import Rulebook.Rule.Journal
import Rulebook.Rule.Metadata
import Rulebook.Scope.Bindings
import Rulebook.Scope.Display
import Rulebook.Scope.Store
import Rulebook.Session.Basic
import Rulebook.Session.Environment
import Rulebook.Session.Evaluation
import Rulebook.Session.Journal
import Rulebook.Session.Registry
import Rulebook.Session.Rules
import Rulebook.Settings.Basic
import Rulebook.Settings.Load
import Rulebook.Term.Arithmetic
import Rulebook.Term.Basic
import Rulebook.Term.Callable
import Rulebook.Term.Display
import Rulebook.Term.Equality
import Rulebook.Term.Moment
import Rulebook.Term.Numeric
import Rulebook.Term.Order
import Rulebook.Term.Property
import Rulebook.Term.Unfold
import Rulebook.Text.Alphanumeric
import Rulebook.Text.Blank
import Rulebook.Text.DecimalDigit
import Rulebook.Text.FrameNumber
import Rulebook.Text.Numeral
import Rulebook.Text.Printable
import Rulebook.Text.Quoted
import Rulebook.Text.Sorted
import Rulebook.Yaml.Block
import Rulebook.Yaml.Content
import Rulebook.Yaml.Cursor
import Rulebook.Yaml.Node
import Rulebook.Yaml.Numeral
import Rulebook.Yaml.Plain
import Rulebook.Yaml.Quoted
import Rulebook.Yaml.Reader
import Rulebook.Yaml.Scalar
import Rulebook.Yaml.Timestamp
import Rulebook.Yaml.Token
import Rulebook.Proofs.Condition.Cutting
import Rulebook.Proofs.Condition.Tree
import Rulebook.Proofs.Condition.RoundTrip
import Rulebook.Proofs.Form.RoundTrip
import Rulebook.Proofs.Scope.Growth
import Rulebook.Proofs.Evaluation.Moves
import Rulebook.Proofs.Evaluation.Definitions
import Rulebook.Proofs.Rule.Firing
import Rulebook.Proofs.Term.Contents
import Rulebook.Proofs.Scope.Chain
import Rulebook.Proofs.Evaluation.Agreement
import Rulebook.Proofs.Evaluation.Limits
import Rulebook.Proofs.Evaluation.Lockstep
import Rulebook.Proofs.Scope.Reach
import Rulebook.Proofs.Evaluation.Territory
import Rulebook.Proofs.Evaluation.Discipline
import Rulebook.Proofs.Evaluation.Hosts
import Rulebook.Proofs.Evaluation.Settling
import Rulebook.Proofs.Evaluation.Ending
import Rulebook.Proofs.Rule.Trials
import Rulebook.Proofs.Rule.Shielding
import Rulebook.Proofs.Rule.Mentions
import Rulebook.Proofs.Rule.Scoping
import Rulebook.Proofs.Term.Equality
import Rulebook.Proofs.Rule.Conflict
import Rulebook.Proofs.Condition.Formula
import Rulebook.Proofs.Scope.Lookup
import Rulebook.Proofs.Evaluation.Calls
import Rulebook.Proofs.Form.Recode
import Rulebook.Proofs.Term.Likeness
import Rulebook.Proofs.Primitive.Likeness
import Rulebook.Proofs.Evaluation.Guards
import Rulebook.Proofs.Scope.Twins
import Rulebook.Proofs.Evaluation.Mirrors
import Rulebook.Proofs.Evaluation.Blindness
import Rulebook.Proofs.Evaluation.Mirroring
import Rulebook.Proofs.Evaluation.Recoded
import Rulebook.Proofs.Form.Meaning
import Rulebook.Proofs.Malformed
import Rulebook.Proofs.Rule.FirstMatch
import Rulebook.Proofs.Rule.Priority
import Rulebook.Proofs.Condition.Nesting
import Rulebook.Proofs.Condition.Composition
import Rulebook.Proofs.Double.Nearest
import Rulebook.Proofs.Term.Plain
import Rulebook.Proofs.Condition.Parsed
import Rulebook.Proofs.Form.Reading
import Rulebook.Proofs.Form.Canonical
import Rulebook.Proofs.Evaluation.Nesting
import Rulebook.Proofs.Evaluation.Restoring
import Rulebook.Proofs.Evaluation.Callbacks
import Rulebook.Proofs.Condition.Respacing
import Rulebook.Proofs.Primitive.Renaming
import Rulebook.Proofs.Evaluation.Echoes
import Rulebook.Proofs.Evaluation.Repeating
import Rulebook.Proofs.Rule.Repeating
import Rulebook.Proofs.Condition.Reading
import Rulebook.Proofs.Condition.Rejected
import Rulebook.Proofs.Form.Rejected
import Rulebook.Proofs.Document.Checked
import Rulebook.Proofs.Document.Compiling
import Rulebook.Proofs.Document.Naming
import Rulebook.Proofs.Document.Reporting
import Rulebook.Proofs.Condition.Leaves
import Rulebook.Proofs.Condition.Operands
import Rulebook.Proofs.Condition.Literals
import Rulebook.Proofs.Settings.Overrides
import Rulebook.Proofs.Condition.Recursion
import Rulebook.Proofs.Condition.Pieces
import Rulebook.Proofs.Condition.Fragment
import Rulebook.Proofs.Primitive.Refusing
import Rulebook.Proofs.Evaluation.Conditions
import Rulebook.Proofs.Evaluation.Deepening
import Rulebook.Proofs.Evaluation.Together
import Rulebook.Proofs.Form.Itemwise
import Rulebook.Proofs.Scope.Observers
import Rulebook.Proofs.Scope.Views
import Rulebook.Proofs.Evaluation.Reachable
import Rulebook.Proofs.Double.Value
import Rulebook.Proofs.Primitive.Ordering
import Rulebook.Proofs.Condition.Lossless
import Rulebook.Proofs.Evaluation.Yielding
import Rulebook.Proofs.Lending.Limits
import Rulebook.Proofs.Lending.Requests
import Rulebook.Proofs.Lending.Clamping
