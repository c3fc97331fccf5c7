import NodeWatch.Service

/-!
A service in smaller steps: what the rounds are made of.

A look that is over is counted, and its error with it, before its round waits for the one under way;
while it waits the look can still be abandoned. A round changes the roster when no stop can begin,
but it is counted, and tells its events, when one may have begun. The counters belong to the whole
process, and others count there as well.
-/

namespace NodeWatch.Service

/-- A service, the looks that are over but whose rounds wait, with what they saw, and the name of
the round that is still to be counted, with the number of members that it left. -/
structure Paced where
  core : Service
  waiting : List (Look × List Observation) := []
  uncounted : Option (String × Nat) := none

namespace Paced

def metrics (p : Paced) : Metrics := p.core.metrics

def awaits (p : Paced) (look : Look) : Bool := p.waiting.any (·.1 = look)

def counting (p : Paced) (f : Metrics → Metrics) : Paced := { p with core := p.core.counting f }

/-- What a look has taken is counted. -/
def timeLook (p : Paced) : Paced := p.counting fun m => m.sampleTimed p.core.settings.backend

/-- A look is over. One that failed saw nothing. -/
def endLook (p : Paced) (look : Look) (result : Except Backend.Error (List Observation)) : Paced :=
  let p := p.timeLook
  match result with
  | .ok os => { p with waiting := (look, os) :: p.waiting }
  | .error e =>
    { p.counting fun m => m.sampleError p.core.settings.backend e.kind with
      waiting := (look, []) :: p.waiting }

/-- A look is not under way any more. -/
def closeLook (p : Paced) (look : Look) : Paced :=
  { p with
    core := { p.core with looks := p.core.looks.erase look }
    waiting := p.waiting.filter (·.1 ≠ look) }

/-- A look is abandoned. What it has taken is counted unless it was over. -/
def abandon (p : Paced) (look : Look) : Paced :=
  (if p.awaits look then p else p.timeLook).closeLook look

/-- A round changes the roster, and is to be counted. -/
def change (p : Paced) (name : String) (r : Roster) (es : List Event) : Paced :=
  { p with
    core := { p.core with roster := r, outbox := p.core.outbox ++ es }
    uncounted := some (name, r.size) }

/-- The round of a look, unless it is discarded. -/
def commit (p : Paced) (os : List Observation) (now : Nat) : List Event × Paced :=
  if p.core.phase = .stopping then ([], p)
  else
    let (es, r) := p.core.roster.observeAll p.core.settings.pins now (Observation.latestById os)
    (es, p.change "discovery" r es)

/-- The round of a sweep, unless it is discarded. -/
def sweep (p : Paced) (now : Nat) (places : Places) : List Event × Paced :=
  if p.core.phase = .stopping then ([], p)
  else
    let (os, r) := p.core.roster.sweep p.core.settings.threshold now places
    let es := os.map fun o => ⟨.lost, o⟩
    (es, p.change "sweep" r es)

/-- The round under way is counted. -/
def count (p : Paced) : Paced :=
  match p.uncounted with
  | none => p
  | some (name, n) =>
    { p.counting fun m => (m.cycle name).setMembers n with uncounted := none }

/-- No round is under way. -/
def Idle (p : Paced) : Prop := p.uncounted = none ∧ p.core.outbox = []

instance (p : Paced) : Decidable p.Idle := inferInstanceAs (Decidable (_ ∧ _))

/-! ### What may happen when -/

/-- One atomic step. -/
inductive Pace where
  /-- A look is over, and its round waits. -/
  | endLook (look : Look) (result : Except Backend.Error (List Observation))
  /-- The round of a look that is over changes the roster. -/
  | commit (look : Look) (now : Nat)
  /-- The round of a sweep does, of the background or for a caller. -/
  | sweep (now : Nat) (places : Places)
  /-- The round under way is counted. -/
  | count
  /-- The next event of the round under way is counted and published. -/
  | tell
  /-- The background's look is abandoned because a stop has waited long enough. -/
  | abandon (look : Look)
  /-- Something else in the process is counted. -/
  | elsewhere (f : Metrics.Family) (values : List String)
  /-- What a service does in one step here as well. -/
  | whole (a : Action)

/-- What is in one step what it was before. -/
def isWhole : Action → Bool
  | .finish .. | .abandon _ | .sweepTick .. | .sweep .. | .tell => false
  | _ => true

/-- What nothing but a service counts. -/
def isOwn : Metrics.Family → Bool
  | .cycles | .sampleErrors | .sampleDuration | .events => true
  | _ => false

/-- The events and the next state of a step; none if the step cannot be made now. -/
def step? (p : Paced) : Pace → Option (List Event × Paced)
  | .endLook look result =>
    if look ∈ p.core.looks ∧ p.awaits look = false then some ([], p.endLook look result) else none
  | .commit look now =>
    match p.waiting.find? (·.1 = look) with
    | none => none
    | some (_, os) => if p.Idle then some ((p.closeLook look).commit os now) else none
  | .sweep now places =>
    if p.Idle ∧ p.core.canSweep = true then some (p.sweep now places) else none
  | .count => if p.uncounted = none then none else some ([], p.count)
  | .tell =>
    if p.uncounted = none ∧ p.core.outbox ≠ [] then
      some ([], { p with core := p.core.tellNext })
    else none
  | .abandon look =>
    if p.core.phase = .stopping ∧ p.core.jammed = false ∧ look ∈ p.core.looks ∧
        look.background = true then
      some ([], p.abandon look)
    else none
  | .elsewhere f values =>
    if isOwn f then none else some ([], p.counting fun m => m.count f values)
  | .whole a =>
    if isWhole a then (p.core.step? a).map fun (es, core) => (es, { p with core }) else none

end Paced

end NodeWatch.Service
