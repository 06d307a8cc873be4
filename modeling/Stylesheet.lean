import Stylesheet.Main
import Stylesheet.Report.Recorder
import Stylesheet.Source.Wire
import Stylesheet.Storage.FileTree
import Stylesheet.Proofs.Source.Image
import Stylesheet.Proofs.Source.Wire
import Stylesheet.Proofs.Source.Possible
import Stylesheet.Proofs.Syntax.StatementGrammar
import Stylesheet.Proofs.Syntax.ExpressionSoundness
import Stylesheet.Proofs.Syntax.StatementSoundness
import Stylesheet.Proofs.Evaluation.HostIndependence
import Stylesheet.Proofs.Report.Transcript
import Stylesheet.Proofs.Compilation.Script
import Stylesheet.Proofs.Compilation.Cancellation
import Stylesheet.Proofs.Compilation.Routing
import Stylesheet.Proofs.Evaluation.ExpressionProvenance
import Stylesheet.Proofs.Evaluation.StatementProvenance
import Stylesheet.Proofs.Compilation.Locations
import Stylesheet.Proofs.Compilation.DeliveryFailure
import Stylesheet.Proofs.Compilation.DivisionNotices
import Stylesheet.Proofs.Compilation.UndefinedVariables
import Stylesheet.Proofs.Syntax.Printer
import Stylesheet.Proofs.Syntax.Reaching
import Stylesheet.Proofs.Syntax.LeafRoundTrip
import Stylesheet.Proofs.Syntax.ExpressionRoundTrip
import Stylesheet.Proofs.Syntax.StatementRoundTrip
import Stylesheet.Proofs.Syntax.QuotedValues
import Stylesheet.Proofs.Syntax.QuotedMessages
import Stylesheet.Proofs.Syntax.NestedRanges
import Stylesheet.Proofs.Syntax.Completeness
import Stylesheet.Proofs.Syntax.OwnText
import Stylesheet.Proofs.Syntax.Concatenation
import Stylesheet.Proofs.Syntax.CommentedRuns
import Stylesheet.Proofs.Syntax.References
import Stylesheet.Proofs.Source.Offsets
import Stylesheet.Proofs.Source.CodeUnits
import Stylesheet.Proofs.Source.Counting
import Stylesheet.Proofs.Source.Conversion
import Stylesheet.Proofs.Source.Stretches
import Stylesheet.Proofs.Evaluation.Frame
import Stylesheet.Proofs.Evaluation.StatementFrame
import Stylesheet.Proofs.Evaluation.Mirroring
import Stylesheet.Proofs.Compilation.Context
import Stylesheet.Proofs.Evaluation.Isolation
import Stylesheet.Proofs.Report.TraceText
import Stylesheet.Proofs.Evaluation.Inclusions
import Stylesheet.Proofs.Evaluation.MixinDepth
import Stylesheet.Proofs.Compilation.Traces
import Stylesheet.Proofs.Evaluation.RuleTree
import Stylesheet.Proofs.Evaluation.Building
import Stylesheet.Proofs.Evaluation.Units
import Stylesheet.Proofs.Compilation.Flattening
import Stylesheet.Proofs.Compilation.Capacity
import Stylesheet.Proofs.Text.Utf8
import Stylesheet.Proofs.Source.FilePath
import Stylesheet.Proofs.Source.PathComponent
import Stylesheet.Proofs.Storage.Register
import Stylesheet.Proofs.Storage.History
import Stylesheet.Proofs.Storage.Loading
import Stylesheet.Proofs.CommandLine.Flags
import Stylesheet.Proofs.Syntax.Recursion
import Stylesheet.Proofs.Evaluation.InnermostRule
import Stylesheet.Proofs.Source.Alignment
import Stylesheet.Proofs.Number.Rounding
import Stylesheet.Proofs.Number.Binary64
import Stylesheet.Proofs.Number.Operations
import Stylesheet.Proofs.Number.ReadBack
import Stylesheet.Proofs.Number.WrittenForm
import Stylesheet.Proofs.Number.Places
import Stylesheet.Proofs.Number.Display
