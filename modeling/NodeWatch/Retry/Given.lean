import NodeWatch.Json.Lookup
import NodeWatch.Retry.Policy

/-!
Policies of which some values are given.
-/

namespace NodeWatch.Retry.Policy

/-- The policy with the values that the object gives. The delays count only together. -/
def given (p : Policy) (v : Json) : Policy :=
  let p := { p with maxRetries := (v.natAt? "max_retries").getD p.maxRetries }
  let p := match v.natAt? "base_delay_ms", v.natAt? "max_delay_ms" with
    | some b, some m => { p with baseDelayMs := b, maxDelayMs := m }
    | _, _ => p
  match v.get "backoff_multiplier" with
  | .real d => { p with factor := factorOf d }
  | .int n => { p with factor := factorOf ⟨decide (n < 0), n.natAbs, 0⟩ }
  | _ => p

end NodeWatch.Retry.Policy
