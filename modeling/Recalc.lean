import Recalc.CommandLine.Directory
import Recalc.Main
import Recalc.Proofs.Workbook.Consistency
import Recalc.Proofs.Workbook.Agreement
import Recalc.Proofs.Workbook.Independence
import Recalc.Proofs.Formula.Lexer
import Recalc.Proofs.Cell.SheetName
import Recalc.Proofs.Cell.Address
import Recalc.Proofs.Formula.NameTable
import Recalc.Proofs.Formula.Reading
import Recalc.Proofs.Eval.Faults
import Recalc.Proofs.Workbook.CleanRun
import Recalc.Proofs.Workbook.Proceed
import Recalc.Proofs.Number.Bits
import Recalc.Proofs.Number.Literal
import Recalc.Proofs.Formula.Lexing
import Recalc.Proofs.Formula.Parsing
import Recalc.Proofs.Graph.Edges
import Recalc.Proofs.Graph.Partition
import Recalc.Proofs.Eval.Criteria
import Recalc.Proofs.Eval.Propagation
import Recalc.Proofs.Eval.Finite
import Recalc.Proofs.Formula.Printing
import Recalc.Proofs.Formula.RoundTrip
import Recalc.Proofs.Formula.Derivation
import Recalc.Proofs.Graph.Depth
import Recalc.Proofs.Graph.Renumbering
import Recalc.Proofs.Workbook.Snapshot
import Recalc.Proofs.Workbook.Sheets
import Recalc.Proofs.Workbook.Refusal
import Recalc.Proofs.Workbook.Extraction
import Recalc.Proofs.Graph.LongestChain
import Recalc.Proofs.Number.Distance
import Recalc.Proofs.Workbook.Settling
import Recalc.Proofs.Workbook.Shadowing
import Recalc.Proofs.Workbook.Synthesis
import Recalc.Proofs.Eval.Lookup
import Recalc.Proofs.Number.Value
import Recalc.Proofs.Eval.Calendar
import Recalc.Proofs.Eval.Serial
import Recalc.Proofs.Eval.Wildcard
import Recalc.Proofs.Eval.Criterion
import Recalc.Proofs.Eval.Comparison
import Recalc.Proofs.Cell.Walk
import Recalc.Proofs.Eval.Nearest
import Recalc.Proofs.Formula.Positions
import Recalc.Proofs.Graph.Downstream
import Recalc.Proofs.Graph.Representatives
import Recalc.Proofs.Formula.Stopping
import Recalc.Proofs.Graph.Search
