import LayeredDispatch.Proofs.Batches.Resizing

/-! Calls and the sizes of batching layers. Rules for batches compare levels only, and nothing but
independent random draws asks a batching layer for its size. Main statement: a call of any other operator
that gives results gives the same ones whatever the sizes of the batching layers are.
-/

namespace LayeredDispatch

open Run

namespace Run

variable {sizes : Level → Size}

-----------------------------------------------------------------------------------------
-- Boxed values
-----------------------------------------------------------------------------------------

end Run

namespace Dispatcher

variable {sizes : Level → Size} {calls : Calls} {op : Schema}

-----------------------------------------------------------------------------------------
-- Interceptors
-----------------------------------------------------------------------------------------

section

variable (inner : Blind sizes (calls.dispatch op))

include inner

end

-----------------------------------------------------------------------------------------
-- Rules for batches
-----------------------------------------------------------------------------------------

section

variable
  (unsqueezes : ∀ other, calls.schema? "unsqueeze" = some other → Blind sizes (calls.dispatch other))

include unsqueezes

variable (inner : Blind sizes (calls.dispatch op))

include inner

end

namespace Base

end Base

end Dispatcher
end LayeredDispatch
