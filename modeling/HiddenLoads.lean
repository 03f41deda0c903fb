import HiddenLoads.Analysis
import HiddenLoads.Bindings
import HiddenLoads.Command
import HiddenLoads.Expr
import HiddenLoads.Expr.OfTree
import HiddenLoads.Expr.Value
import HiddenLoads.Failure
import HiddenLoads.Files
import HiddenLoads.Host
import HiddenLoads.Host.Arguments
import HiddenLoads.Host.Standard
import HiddenLoads.Json
import HiddenLoads.Json.Reader
import HiddenLoads.Json.Writer
import HiddenLoads.Language
import HiddenLoads.Literal.Base64
import HiddenLoads.Literal.Hex
import HiddenLoads.Literal.StringBody
import HiddenLoads.Main
import HiddenLoads.Manifest
import HiddenLoads.Number
import HiddenLoads.Number.Binary64
import HiddenLoads.Number.Decimal
import HiddenLoads.Number.Literal
import HiddenLoads.Number.Shortest
import HiddenLoads.Package
import HiddenLoads.Pass
import HiddenLoads.Path.FsPath
import HiddenLoads.Path.Join
import HiddenLoads.Probe
import HiddenLoads.Probe.Import
import HiddenLoads.Probe.Require
import HiddenLoads.Recovery
import HiddenLoads.Report
import HiddenLoads.Settings
import HiddenLoads.Snapshot
import HiddenLoads.Source
import HiddenLoads.Span
import HiddenLoads.Specifier
import HiddenLoads.Terminal
import HiddenLoads.Terminal.Codec
import HiddenLoads.Text
import HiddenLoads.Text.Blank
import HiddenLoads.Text.Case
import HiddenLoads.Text.Digit
import HiddenLoads.Text.Native
import HiddenLoads.Text.Printable
import HiddenLoads.Text.Quoted
import HiddenLoads.Text.Utf16
import HiddenLoads.Text.Utf8
import HiddenLoads.Tracer
import HiddenLoads.Tracer.Observe
import HiddenLoads.Tree
import HiddenLoads.Tree.Kind
import HiddenLoads.Tree.Numbered
import HiddenLoads.Proofs.Names
import HiddenLoads.Proofs.Lookup
import HiddenLoads.Proofs.Outcome
import HiddenLoads.Proofs.Traversal
import HiddenLoads.Proofs.Numbering
import HiddenLoads.Proofs.Table
import HiddenLoads.Proofs.CallSites
import HiddenLoads.Proofs.Completion
import HiddenLoads.Proofs.PlainLoads
import HiddenLoads.Proofs.Spellings
import HiddenLoads.Proofs.StraightLine
import HiddenLoads.Proofs.Rules
import HiddenLoads.Proofs.LoadRecords
import HiddenLoads.Proofs.Sums
import HiddenLoads.Proofs.Tour
import HiddenLoads.Proofs.Descent
import HiddenLoads.Proofs.Building
import HiddenLoads.Proofs.Reported
import HiddenLoads.Proofs.Disguise
import HiddenLoads.Proofs.Trivia
import HiddenLoads.Proofs.Holdings
import HiddenLoads.Proofs.Assignments
import HiddenLoads.Proofs.Destructuring
import HiddenLoads.Proofs.Following
import HiddenLoads.Proofs.Copies
import HiddenLoads.Proofs.PrunedOrder
import HiddenLoads.Proofs.EvalMark
import HiddenLoads.Proofs.SiteOrder
import HiddenLoads.Proofs.SourceOrder
import HiddenLoads.Proofs.ScalarSpecifiers
import HiddenLoads.Proofs.Operands
import HiddenLoads.Proofs.Dispatch
import HiddenLoads.Proofs.GlobalObjects
import HiddenLoads.Proofs.Patterns
import HiddenLoads.Proofs.Octets
import HiddenLoads.Proofs.Digits
import HiddenLoads.Proofs.Splitting
import HiddenLoads.Proofs.Escapes
import HiddenLoads.Proofs.Surrogates
import HiddenLoads.Proofs.Encodings
import HiddenLoads.Proofs.NormalPaths
import HiddenLoads.Proofs.StepwisePaths
import HiddenLoads.Proofs.IntegerLiterals
import HiddenLoads.Proofs.BlankSpecifiers
import HiddenLoads.Proofs.UndeclaredPackages
