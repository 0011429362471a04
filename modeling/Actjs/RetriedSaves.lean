import Actjs.FinalFlush

/-!
# Writes that fail

`flushSnapshot` clears the dirty mark before it hands the write to the driver, and
nothing sets it again if the write fails. The state is written later only if the
host was marked dirty in the meantime: by a turn, or by a migration. Otherwise the
host takes the state for saved, and a deactivation that reports success drops it.

## How it is proved

The work is done in `Carrying`, whose invariant follows the value and the
writes that failed. What is left is to read the statement off a state, and the
one point to it is that a host which is being deactivated has no write of its
activation in flight any more.
-/

variable {S Env Op : Type}

namespace Carrying

variable {w : Watched S Env Op}

end Carrying

namespace Counter

end Counter
