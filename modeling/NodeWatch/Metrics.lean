import NodeWatch.Text.Numeral

/-!
What is counted about a running service. Nothing is counted before counting has begun.
-/

namespace NodeWatch

namespace Metrics

/-- A family of counters, told apart by the values of their labels. -/
inductive Family where
  | cycles
  | sampleErrors
  | sampleDuration
  | events
  | observerFailures
  | observerDropped
  | reconcileOutcomes
  | announcements
  deriving DecidableEq

/-- A counter: its family and the values of its labels. -/
structure Series where
  family : Family
  values : List String
  deriving DecidableEq

end Metrics

/-- The number of members and the counters that have moved. -/
structure Metrics where
  active : Bool := false
  members : Nat := 0
  counts : List (Metrics.Series × Nat) := []

namespace Metrics

def init (m : Metrics) : Metrics := { m with active := true }

/-- The values of the labels without a break between them. -/
def Series.reading (s : Series) : String := String.join s.values

/-- Series of a family are told apart by their readings alone: those that read the same are one,
under the values that came first. -/
def Series.same (s t : Series) : Bool := s.family = t.family && s.reading = t.reading

def bump (s : Series) : List (Series × Nat) → List (Series × Nat)
  | [] => [(s, 1)]
  | (t, n) :: r => if s.same t then (t, n + 1) :: r else (t, n) :: bump s r

/-- Counts one more. -/
def count (m : Metrics) (f : Family) (values : List String) : Metrics :=
  if m.active then { m with counts := bump ⟨f, values⟩ m.counts } else m

def setMembers (m : Metrics) (n : Nat) : Metrics := if m.active then { m with members := n } else m

def get (m : Metrics) (f : Family) (values : List String) : Nat :=
  ((m.counts.find? fun (t, _) => (⟨f, values⟩ : Series).same t).map (·.2)).getD 0

/-- The sum over all series of a family. -/
def total (m : Metrics) (f : Family) : Nat :=
  (m.counts.filter (·.1.family = f)).foldl (fun n (_, k) => n + k) 0

def cycle (m : Metrics) (name : String) : Metrics := m.count .cycles [name]
def sampleError (m : Metrics) (backend kind : String) : Metrics :=
  m.count .sampleErrors [backend, kind]
def sampleTimed (m : Metrics) (backend : String) : Metrics := m.count .sampleDuration [backend]
def event (m : Metrics) (kind : String) : Metrics := m.count .events [kind]
def observerFailure (m : Metrics) (name : String) : Metrics := m.count .observerFailures [name]
def observerDrop (m : Metrics) (name : String) : Metrics := m.count .observerDropped [name]
def reconciled (m : Metrics) (outcome : String) : Metrics := m.count .reconcileOutcomes [outcome]
def announced (m : Metrics) (ok : Bool) : Metrics :=
  m.count .announcements [if ok then "ok" else "error"]

end Metrics

end NodeWatch
