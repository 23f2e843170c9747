import Checkspan.Admission
import Checkspan.Decisions
import Checkspan.Prerequisites
import Checkspan.NodeRuns

/-!
# What the cancel route of a retry policy stops

`OnExhaustion::Cancel` is documented to cancel a node and its dependents
(`src/contracts/node.rs:168-176`). The policy writes one cancellation, for the node itself
(`src/budget/mod.rs:440-517`), so its dependents are stopped only where they had ended
before.
-/

namespace Checkspan

open Transition Relation

namespace Store

end Store

namespace Pilot

end Pilot

end Checkspan
