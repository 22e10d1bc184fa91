import Befunge.Codec.Report
import Befunge.Json.ReaderLemmas
import Befunge.Json.Arrangement
import Befunge.Random.Progression
import Befunge.Session
import Befunge.Proofs.Endless
import Befunge.Proofs.Pointer
import Befunge.Proofs.Steering
import Befunge.Proofs.StringMode
import Befunge.Proofs.Cells
import Befunge.Proofs.Locality
import Befunge.Proofs.Elsewhere
import Befunge.Proofs.Replay
import Befunge.Proofs.Layout
import Befunge.Proofs.Provenance
import Befunge.Proofs.Reaching
import Befunge.Proofs.Expression
import Befunge.Proofs.Printer
import Befunge.Proofs.Ending
import Befunge.Proofs.Log
import Befunge.Proofs.Chance
import Befunge.Proofs.RoundTrip
import Befunge.Proofs.Restoring
import Befunge.Proofs.WholeRun
import Befunge.Proofs.Growth
import Befunge.Proofs.Translation
import Befunge.Proofs.Diagonal
import Befunge.Proofs.Bounds
import Befunge.Proofs.Failing
import Befunge.Proofs.Retrying
import Befunge.Proofs.Fairness
import Befunge.Proofs.Storage
import Befunge.Proofs.Rendering
import Befunge.Proofs.Coverage
import Befunge.Proofs.Division
import Befunge.Proofs.Messages
import Befunge.Proofs.Presentation
import Befunge.Proofs.Remainder
import Befunge.Proofs.Stride
