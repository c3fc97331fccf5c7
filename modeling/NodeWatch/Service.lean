import NodeWatch.Bus.Workers
import NodeWatch.Config.Discovery
import NodeWatch.Roster
import NodeWatch.Service.Error
import NodeWatch.Time.Clock

/-!
The service that keeps the roster of members and tells observers how it changes.

It looks for nodes now and then, and on request. A look takes time, and several may be under way;
only when one ends is the roster brought in line, all at once. The events of such a round wait in an
outbox, and the next round does not begin before they are published. A look that fails counts as one
that saw nothing: members leave by sweeps alone. Looks that end while the service stops are
discarded.

Spans come from the settings, and some are too long to be told. Without its threshold no sweep is
made. A stop that cannot tell its deadline fails half way, and discards everything from then on.
-/

namespace NodeWatch

namespace Service

/-- What a service needs to know of its settings. Times are in ticks of its clock. -/
structure Settings where
  clock : Time.Clock
  backend : String
  pins : Bool
  interval : Nat
  timeout : Nat
  threshold : Nat
  sweepPeriod : Nat
  grace : Nat

namespace Settings

def ofConfig (c : Config.Discovery) (backend : String) (pins : Bool)
    (clock : Time.Clock := .standard) : Settings where
  clock
  backend
  pins
  interval := clock.ofSeconds c.intervalSecs.toNat
  timeout := clock.ofSeconds c.timeoutSecs.toNat
  threshold := clock.ofSeconds (c.intervalSecs.toNat * c.stalenessMultiplier.toNat)
  sweepPeriod := clock.ofSeconds (c.intervalSecs.toNat * c.sweepMultiplier.toNat)
  grace := clock.ofSeconds c.shutdownGraceSecs.toNat

/-- The threshold can be told. -/
def hasThreshold (σ : Settings) : Bool := σ.clock.isSpan σ.threshold

/-- The time between two sweeps of the background can be told. -/
def hasPeriod (σ : Settings) : Bool := σ.clock.isSpan σ.sweepPeriod

/-- The time at which a stop would give up waiting can be told. -/
def hasDeadline (σ : Settings) (now : Nat) : Bool := σ.clock.tells now σ.grace

end Settings

/-- Stopped, running, or waiting for the last look of the background to end. -/
inductive Phase where
  | stopped
  | running
  | stopping
  deriving DecidableEq

/-- A look that has begun: by the service itself in the background, or for a caller. -/
structure Look where
  id : Nat
  background : Bool
  deriving DecidableEq

end Service

structure Service where
  settings : Service.Settings
  roster : Roster := .empty
  workers : Workers
  phase : Service.Phase := .stopped
  /-- A stop has failed. The service goes on stopping for ever. -/
  jammed : Bool := false
  looks : List Service.Look := []
  nextLook : Nat := 0
  /-- The events of the round under way that are still to be published. -/
  outbox : List Event := []

namespace Service

/-- A new service, unless its settings are invalid. -/
def make (c : Config.Discovery) (backend : String) (pins : Bool) (m : Metrics)
    (clock : Time.Clock := .standard) : Except Error Service :=
  match c.fault? with
  | some f => .error (.config f.message)
  | none => .ok {
      settings := Settings.ofConfig c backend pins clock
      workers := { bus := .ofCapacity c.observerQueueCapacity.toNat, metrics := m } }

def isRunning (s : Service) : Bool := s.phase ≠ .stopped

def metrics (s : Service) : Metrics := s.workers.metrics

/-- Counts something. -/
def counting (s : Service) (f : Metrics → Metrics) : Service :=
  { s with workers := { s.workers with metrics := f s.workers.metrics } }

/-- Counts an event and publishes it. -/
def tell (s : Service) (e : Event) : Service :=
  let s := s.counting fun m => m.event e.kind.text
  { s with workers := s.workers.publish e }

/-- Tells the next event of the round under way. -/
def tellNext (s : Service) : Service :=
  match s.outbox with
  | [] => s
  | e :: es => { s with outbox := es }.tell e

/-- Tells all events of the round under way, in their order. -/
def tellAll (s : Service) : Service := s.outbox.foldl tell { s with outbox := [] }

/-- A round changes the roster. -/
def rounded (s : Service) (name : String) (r : Roster) (es : List Event) : Service :=
  let s := { s with roster := r, outbox := s.outbox ++ es }
  s.counting fun m => (m.cycle name).setMembers r.size

/-- Brings the roster in line with what was seen. -/
def commit (s : Service) (os : List Observation) (now : Nat) : List Event × Service :=
  if s.phase = .stopping then ([], s)
  else
    let (es, r) := s.roster.observeAll s.settings.pins now (Observation.latestById os)
    (es, s.rounded "discovery" r es)

/-- A sweep needs its threshold, unless it is discarded before. -/
def canSweep (s : Service) : Bool := s.phase = .stopping || s.settings.hasThreshold

/-- Gives up the members that have not been observed for too long. -/
def sweep (s : Service) (now : Nat) (places : Places) : List Event × Service :=
  if s.phase = .stopping then ([], s)
  else
    let (os, r) := s.roster.sweep s.settings.threshold now places
    let es := os.map fun o => ⟨.lost, o⟩
    (es, s.rounded "sweep" r es)

def beginLook (s : Service) (background : Bool) : Look × Service :=
  let look : Look := ⟨s.nextLook, background⟩
  (look, { s with looks := look :: s.looks, nextLook := s.nextLook + 1 })

/-- A look is over, one way or the other. -/
def closeLook (s : Service) (look : Look) : Service :=
  { s with looks := s.looks.erase look }.counting fun m => m.sampleTimed s.settings.backend

/-- A look ends with what it saw, or with an error. -/
def endLook (s : Service) (look : Look) (result : Except Backend.Error (List Observation))
    (now : Nat) : List Event × Service :=
  let s := s.closeLook look
  match result with
  | .ok os => s.commit os now
  | .error e => (s.counting fun m => m.sampleError s.settings.backend e.kind).commit [] now

def start (s : Service) : Except Error Service :=
  if s.phase = .stopped then .ok { s with phase := .running } else .error .alreadyRunning

/-- A stop begins; a service that is not running has nothing to stop. -/
def beginStop (s : Service) : Service :=
  if s.phase = .running then { s with phase := .stopping } else s

/-- A stop ends. -/
def endStop (s : Service) : Service := { s with phase := .stopped }

/-- A stop fails. -/
def jam (s : Service) : Service := { s with jammed := true }

/-! ### What may happen when -/

/-- One atomic step of a run. -/
inductive Action where
  /-- The background begins a look. -/
  | tick
  /-- A caller begins one. -/
  | ask
  | finish (look : Look) (result : Except Backend.Error (List Observation)) (now : Nat)
  /-- The background's look is abandoned because a stop has waited long enough. -/
  | abandon (look : Look)
  /-- The background sweeps. -/
  | sweepTick (now : Nat) (places : Places)
  /-- A caller has the service sweep. -/
  | sweep (now : Nat) (places : Places)
  /-- The next event of the round under way is published. -/
  | tell
  | start
  | stop
  | stopped
  /-- A stop that has begun cannot tell its deadline, and fails. -/
  | jam (now : Nat)
  /-- An observer comes, goes, takes an event, or is through with one. -/
  | subscribe (name : String)
  | unsubscribe (id : Nat)
  | take (id : Nat)
  | done (id : Nat)

/-- A look of the background is under way. -/
def isBusy (s : Service) : Bool := s.looks.any (·.background)

/-- The events and the next state of a step; none if the step cannot be made now. The background
looks once at a time and only while the service runs; a stop waits for that look. A round begins
when the one before it has told all its events. A jammed service can be started and stopped, which
changes nothing, and what is in its background looks in vain. -/
def step? (s : Service) : Action → Option (List Event × Service)
  | .tick =>
    if s.phase = .running ∧ s.isBusy = false ∨ s.jammed = true then some ([], (s.beginLook true).2)
    else none
  | .ask => some ([], (s.beginLook false).2)
  | .finish look result now =>
    if look ∈ s.looks ∧ s.outbox = [] then some (s.endLook look result now) else none
  | .abandon look =>
    if s.phase = .stopping ∧ s.jammed = false ∧ look ∈ s.looks ∧ look.background = true then
      some ([], s.closeLook look)
    else none
  | .sweepTick now places =>
    if s.phase = .running ∧ s.outbox = [] ∧ s.settings.hasPeriod = true ∧ s.canSweep = true then
      some (s.sweep now places)
    else none
  | .sweep now places =>
    if s.outbox = [] ∧ s.canSweep = true then some (s.sweep now places) else none
  | .tell => if s.outbox = [] then none else some ([], s.tellNext)
  | .start =>
    if s.phase = .stopping ∧ s.jammed = false then none
    else match s.start with
      | .ok s' => some ([], s')
      | .error _ => some ([], s)
  | .stop =>
    if s.phase = .stopping ∧ s.jammed = false then none else some ([], s.beginStop)
  | .stopped =>
    if s.phase = .stopping ∧ s.jammed = false ∧ s.isBusy = false then some ([], s.endStop)
    else none
  | .jam now =>
    if s.phase = .stopping ∧ s.settings.hasDeadline now = false then some ([], s.jam) else none
  | .subscribe name => some ([], { s with workers := (s.workers.subscribe name).2 })
  | .unsubscribe id => some ([], { s with workers := (s.workers.unsubscribe id).2 })
  | .take id =>
    (s.workers.bus.take? id).map fun (_, bus) => ([], { s with workers := { s.workers with bus } })
  | .done id => some ([], { s with workers := { s.workers with bus := s.workers.bus.finish id } })

end Service

end NodeWatch
