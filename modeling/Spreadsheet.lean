import Spreadsheet.Json.Value
import Spreadsheet.Snapshot.File
import Spreadsheet.Proofs.Dependency.Pairs
import Spreadsheet.Proofs.Dependency.Walk
import Spreadsheet.Proofs.Formula.Evaluation
import Spreadsheet.Proofs.Sheet.Current
import Spreadsheet.Proofs.Sheet.History
import Spreadsheet.Proofs.Json.Written
import Spreadsheet.Proofs.Snapshot.Text
import Spreadsheet.Proofs.Number.Double
import Spreadsheet.Proofs.Number.Nearest
import Spreadsheet.Proofs.Number.ReadBack
import Spreadsheet.Proofs.Formula.Printing
import Spreadsheet.Proofs.Snapshot.Replay
import Spreadsheet.Proofs.Formula.Derivation
import Spreadsheet.Proofs.Dependency.Cycle
import Spreadsheet.Proofs.Sheet.Cycle
import Spreadsheet.Proofs.Sheet.Rebuilt
import Spreadsheet.Proofs.Dependency.Operations
import Spreadsheet.Proofs.Formula.Dialogue
import Spreadsheet.Proofs.Snapshot.Order
import Spreadsheet.Proofs.Dependency.Order
import Spreadsheet.Proofs.Dependency.Search
import Spreadsheet.Proofs.Sheet.Change
import Spreadsheet.Proofs.Sheet.Retyped
import Spreadsheet.Proofs.Sheet.Upstream
import Spreadsheet.Proofs.Formula.Inlining
import Spreadsheet.Proofs.Sheet.Finite
import Spreadsheet.Proofs.Formula.Completion
import Spreadsheet.Proofs.Snapshot.Overwritten
import Spreadsheet.Proofs.Formula.Lexemes
import Spreadsheet.Proofs.Sheet.Reference
import Spreadsheet.Proofs.Snapshot.Version
import Spreadsheet.Proofs.Json.Value
import Spreadsheet.Proofs.Dependency.Termination
