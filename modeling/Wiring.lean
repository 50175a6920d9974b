import Wiring.Main
import Wiring.Proofs.Resolution.Acyclicity
import Wiring.Proofs.Resolution.Failures
import Wiring.Proofs.Resolution.Reuse
import Wiring.Proofs.Graph.Import
import Wiring.Proofs.Plan.Order
import Wiring.Proofs.Resolution.Identity
import Wiring.Proofs.Generics.Narrowing
import Wiring.Proofs.Range.Alternatives
import Wiring.Proofs.Resolution.Reserved
import Wiring.Proofs.Resolution.Limit
import Wiring.Proofs.Resolution.Termination
import Wiring.Proofs.Resolution.Calls
import Wiring.Proofs.Resolution.Variables
import Wiring.Proofs.Generics.Scope
import Wiring.Proofs.Range.Symmetry
import Wiring.Proofs.Range.Agreement
import Wiring.Proofs.Range.Soundness
import Wiring.Proofs.Generics.Termination
import Wiring.Proofs.Range.Parts
import Wiring.Proofs.Generics.Repetition
import Wiring.Proofs.Range.Algebra
import Wiring.Proofs.Component
import Wiring.Proofs.Datatype.Lexical
import Wiring.Proofs.Parameter.Delivery
import Wiring.Proofs.Resolution.Spelling
import Wiring.Proofs.Range.Description
import Wiring.Proofs.Resolution.Keys
import Wiring.Proofs.Graph.Interning
import Wiring.Proofs.Settings
