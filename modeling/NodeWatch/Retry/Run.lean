import NodeWatch.Retry.Policy

/-!
A call repeated until it succeeds, fails for good, or has been repeated often enough.
-/

namespace NodeWatch.Retry

/-- The result of the last call, and when each call was made. -/
structure Trace (ε α : Type) where
  result : Except ε α
  atMs : List Nat

variable {ε α : Type}

/-- The calls from number `attempt` on, of which `left` may follow the first. Call `n` takes
`takes n` milliseconds. -/
def runFrom (p : Policy) (retryable : ε → Bool) (outcome : Nat → Except ε α) (takes : Nat → Nat) :
    (left attempt clock : Nat) → Trace ε α
  | left, attempt, clock =>
    let now := clock + p.delayMs attempt
    match outcome attempt with
    | .ok a => ⟨.ok a, [now]⟩
    | .error e =>
      if !retryable e then ⟨.error e, [now]⟩
      else match left with
        | 0 => ⟨.error e, [now]⟩
        | left + 1 =>
          let rest := runFrom p retryable outcome takes left (attempt + 1) (now + takes attempt)
          ⟨rest.result, now :: rest.atMs⟩

/-- All calls, the first at time 0. -/
def timed (p : Policy) (retryable : ε → Bool) (outcome : Nat → Except ε α) (takes : Nat → Nat) :
    Trace ε α :=
  runFrom p retryable outcome takes p.maxRetries 0 0

/-- All calls, when none of them takes any time. -/
def run (p : Policy) (retryable : ε → Bool) (outcome : Nat → Except ε α) : Trace ε α :=
  timed p retryable outcome fun _ => 0

end NodeWatch.Retry
