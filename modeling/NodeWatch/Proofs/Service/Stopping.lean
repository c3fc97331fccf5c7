import NodeWatch.Proofs.Service.Looks

/-!
Looks that are under way when a stop begins.

While the stop is under way, whatever a look saw is discarded. The stop waits for the look of the
background or abandons it, but it does not wait for those of callers, and once it has ended nothing
tells them from later ones.
-/

namespace NodeWatch.Service

variable {c : Config.Discovery} {backend : String} {pins : Bool} {metrics : Metrics}
  {clock : Time.Clock} {s₀ s₁ s s' : Service} {es : List Event}
  {past between before : List Moment} {m : Moment} {l : Look}
  {result : Except Backend.Error (List Observation)} {now : Nat}

end NodeWatch.Service
