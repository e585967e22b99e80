import Rulebook.Object.Construction
import Rulebook.Workspace
import Rulebook.Proofs.Termination
import Rulebook.Proofs.FirstFailure
import Rulebook.Proofs.PlanCache
import Rulebook.Proofs.Wire
import Rulebook.Proofs.RoundTrip
import Rulebook.Proofs.NormalForm
import Rulebook.Proofs.Acceptance
import Rulebook.Proofs.Compilation
import Rulebook.Proofs.Isolation
import Rulebook.Proofs.Reordering
import Rulebook.Proofs.Reach
import Rulebook.Proofs.ExactType
import Rulebook.Proofs.Composition
import Rulebook.Proofs.Growth
import Rulebook.Proofs.Loading
import Rulebook.Proofs.PropertyKeys
import Rulebook.Proofs.Compilability
import Rulebook.Proofs.Containment
import Rulebook.Proofs.Assignment
import Rulebook.Proofs.Shaped
import Rulebook.Proofs.Stripping
import Rulebook.Proofs.Arrangement
import Rulebook.Proofs.Tally
import Rulebook.Proofs.Absence
import Rulebook.Proofs.Halting
import Rulebook.Proofs.Hashability
import Rulebook.Proofs.Overflow
import Rulebook.Proofs.PlanFailure
import Rulebook.Proofs.Accounting
import Rulebook.Proofs.Parallel
import Rulebook.Proofs.Rewording
import Rulebook.Proofs.Configured
import Rulebook.Proofs.Unlocated
import Rulebook.Proofs.Described
import Rulebook.Proofs.Annotations
import Rulebook.Proofs.MailAddress
import Rulebook.Proofs.Integrality
import Rulebook.Proofs.Bounds
import Rulebook.Proofs.Misuse
import Rulebook.Proofs.ActivePath
