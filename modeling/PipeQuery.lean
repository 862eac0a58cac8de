import PipeQuery.Main
import PipeQuery.Cursor
import PipeQuery.Proofs.Soundness
import PipeQuery.Proofs.CustomOperators
import PipeQuery.Proofs.Depth
import PipeQuery.Proofs.Meaning
import PipeQuery.Proofs.Headroom
import PipeQuery.Proofs.Interchange
import PipeQuery.Proofs.ConstructedMeaning
import PipeQuery.Proofs.Comparison
import PipeQuery.Proofs.SortOrder
import PipeQuery.Proofs.Conservativity
import PipeQuery.Proofs.Reachability
import PipeQuery.Proofs.Outcomes
import PipeQuery.Proofs.Limits
import PipeQuery.Proofs.FaultPlaces
import PipeQuery.Proofs.Layouts
import PipeQuery.Proofs.LineBreaks
import PipeQuery.Proofs.Continuation
import PipeQuery.Proofs.Chaining
import PipeQuery.Proofs.Balance
import PipeQuery.Proofs.Parenthesized
import PipeQuery.Proofs.Weight
import PipeQuery.Proofs.Grouping
import PipeQuery.Proofs.Sorting
import PipeQuery.Proofs.IntegerArithmetic
import PipeQuery.Proofs.MixedArithmetic
import PipeQuery.Proofs.NearestMultiple
import PipeQuery.Proofs.Flattening
import PipeQuery.Proofs.NearestDouble
import PipeQuery.Proofs.Partition
import PipeQuery.Proofs.LongestNumeral
import PipeQuery.Proofs.Totals
import PipeQuery.Proofs.DecimalSegments
import PipeQuery.Proofs.ExactLiteral
import PipeQuery.Proofs.Progress
