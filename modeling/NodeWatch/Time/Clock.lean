import NodeWatch.Time.Span

/-!
Clocks, which count ticks and never go back. A clock tells no time after its last tick, and not
every number of ticks is a length of time that can be told.
-/

namespace NodeWatch.Time

/-- How many ticks make a second, and the last tick that can be told. -/
structure Clock where
  second : Nat
  last : Nat
  pos : 0 < second

namespace Clock

/-- A clock of milliseconds that has been going for a second when it is first looked at. It has 63
bits for the seconds. -/
def standard : Clock := ⟨1000, 9223372036854775807 * 1000 - 1, by decide⟩

def ofSeconds (k : Clock) (n : Nat) : Nat := n * k.second

/-- The length of some ticks. -/
def span (k : Clock) (ticks : Nat) : Span := ⟨ticks * 1000000000 / k.second⟩

/-- Whole seconds that are no more than the longest span has. -/
def isSpan (k : Clock) (ticks : Nat) : Bool := ticks ≤ k.ofSeconds Span.maxSeconds

/-- Whether the time after some ticks can be told. -/
def tells (k : Clock) (now ticks : Nat) : Bool := now + ticks ≤ k.last

end Clock

end NodeWatch.Time
