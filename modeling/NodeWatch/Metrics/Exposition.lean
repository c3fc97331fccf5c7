import NodeWatch.Metrics

/-!
Metrics as the lines that a monitoring server reads: families in the order of their names, the
series of a family in the order of the values of their labels, a help and a type line before them.
-/

namespace NodeWatch.Metrics

open Text

namespace Family

def all : List Family :=
  [cycles, sampleErrors, sampleDuration, events, observerFailures, observerDropped,
    reconcileOutcomes, announcements]

def text : Family → String
  | cycles => "pifleet_discovery_cycles_total"
  | sampleErrors => "pifleet_discovery_sample_errors_total"
  | sampleDuration => "pifleet_discovery_sample_duration_seconds"
  | events => "pifleet_discovery_events_total"
  | observerFailures => "pifleet_discovery_observer_failures_total"
  | observerDropped => "pifleet_discovery_observer_dropped_total"
  | reconcileOutcomes => "pifleet_reconcile_outcomes_total"
  | announcements => "pifleet_announcements_total"

def help : Family → String
  | cycles => "Discovery and sweep cycles run"
  | sampleErrors => "Backend sample failures by kind"
  | sampleDuration => "Backend sample duration in seconds"
  | events => "Membership events emitted by kind"
  | observerFailures => "Observer handler errors and panics"
  | observerDropped => "Events dropped because an observer queue was full or closed"
  | reconcileOutcomes => "Reconciler results by outcome"
  | announcements => "Beacon announcements by result"

def labels : Family → List String
  | cycles => ["cycle"]
  | sampleErrors => ["backend", "kind"]
  | sampleDuration => ["backend"]
  | events => ["kind"]
  | observerFailures | observerDropped => ["observer"]
  | reconcileOutcomes => ["outcome"]
  | announcements => ["result"]

/-- Durations are kept in buckets. -/
def isHistogram : Family → Bool
  | sampleDuration => true
  | _ => false

end Family

def membersName : String := "pifleet_discovery_members"
def membersHelp : String := "Number of nodes currently in the membership registry"

/-- The floating number nearest to a natural number, of two equally near the even one. -/
def nearestFloat (n : Nat) : Nat :=
  let spare := n.log2 + 1 - 53
  let unit := Nat.pow 2 spare
  let q := n / unit
  let r := n % unit
  (if 2 * r > unit ∨ (2 * r = unit ∧ q % 2 = 1) then q + 1 else q) * unit

def number (n : Nat) : String := String.ofList (decimal (nearestFloat n))

def escapeLabel (c : Char) : List Char :=
  if c = '\\' then ['\\', '\\']
  else if c = '\n' then ['\\', 'n']
  else if c = '"' then ['\\', '"']
  else [c]

/-- Labels with their values, in braces. -/
def labelText (ls : List (String × String)) : String :=
  let pair (l : String × String) :=
    l.1 ++ "=\"" ++ String.ofList (l.2.toList.flatMap escapeLabel) ++ "\""
  "\x7b" ++ ",".intercalate (ls.map pair) ++ "\x7d"

def Series.labels (s : Series) : List (String × String) := s.family.labels.zip s.values

/-- The name under which the count of a series is written. -/
def Series.name (s : Series) : String :=
  s.family.text ++ (if s.family.isHistogram then "_count" else "") ++ labelText s.labels

/-- The lines of one series. Of a histogram these are the bucket of all durations and the count. -/
def Series.lines (s : Series) (n : Nat) : List String :=
  let line := s.name ++ " " ++ number n
  if s.family.isHistogram then
    [s.family.text ++ "_bucket" ++ labelText (s.labels ++ [("le", "+Inf")]) ++ " " ++ number n,
      line]
  else [line]

def header (name help type : String) : List String :=
  ["# HELP " ++ name ++ " " ++ help, "# TYPE " ++ name ++ " " ++ type]

/-- Lexicographic order of label values. -/
def valuesLe (a b : List String) : Bool := !(decide (b < a))

def familyLines (m : Metrics) (f : Family) : List String :=
  let series := (m.counts.filter (·.1.family = f)).mergeSort fun a b =>
    valuesLe a.1.values b.1.values
  if series = [] then []
  else header f.text f.help (if f.isHistogram then "histogram" else "counter")
    ++ series.flatMap fun (s, n) => s.lines n

/-- The counters and the number of members under the names of their lines, those without an
increase left out. -/
def samples (m : Metrics) : List (String × Nat) :=
  m.counts.map (fun (s, n) => (s.name, n)) ++
    if m.members = 0 then [] else [(membersName, m.members)]

/-- All lines. -/
def lines (m : Metrics) : List String :=
  if !m.active then []
  else
    let members :=
      header membersName membersHelp "gauge" ++ [membersName ++ " " ++ number m.members]
    let blocks := (membersName, members) :: Family.all.map fun f => (f.text, m.familyLines f)
    (blocks.mergeSort fun a b => a.1 ≤ b.1).flatMap (·.2)

end NodeWatch.Metrics
