import NodeWatch.Time.Calendar

/-!
Instants of universal time to the nanosecond, leap seconds included.
-/

namespace NodeWatch.Time

/-- Seconds since 1970 and the nanoseconds within them. A leap second repeats the count of the
second before it and has a thousand million nanoseconds more. -/
structure Instant where
  seconds : Int
  nanos : Nat
  nanos_lt : nanos < 1000000000 ∨ (nanos < 2000000000 ∧ seconds % 60 = 59)
  deriving DecidableEq

namespace Instant

def ofSeconds (s : Int) : Instant := ⟨s, 0, Or.inl (by decide)⟩

instance : Inhabited Instant := ⟨ofSeconds 0⟩

/-- The instant with these parts, if it exists. -/
def of? (s : Int) (n : Nat) : Option Instant :=
  if h : n < 1000000000 ∨ (n < 2000000000 ∧ s % 60 = 59) then some ⟨s, n, h⟩ else none

def date (t : Instant) : Date := Date.ofDays (t.seconds / 86400)

def secondOfDay (t : Instant) : Nat := (t.seconds % 86400).toNat

/-- Earlier or the same. -/
def le (t u : Instant) : Bool :=
  t.seconds < u.seconds || (t.seconds = u.seconds && t.nanos ≤ u.nanos)

def lt (t u : Instant) : Bool := !le u t

instance : LE Instant := ⟨fun t u => le t u = true⟩
instance : LT Instant := ⟨fun t u => lt t u = true⟩
instance (t u : Instant) : Decidable (t ≤ u) := inferInstanceAs (Decidable (le t u = true))
instance (t u : Instant) : Decidable (t < u) := inferInstanceAs (Decidable (lt t u = true))

/-- The later of two instants, the first of equals. -/
def latest (t u : Instant) : Instant := if t < u then u else t

/-- The years that instants may have. -/
def minYear : Int := -262143
def maxYear : Int := 262142

def inRange (t : Instant) : Bool := minYear ≤ t.date.year && t.date.year ≤ maxYear

end Instant

end NodeWatch.Time
