import NodeWatch.Service

/-!
The controls of a service: what its phase is made of.

A start and a stop hold one lock while they are under way. A start leaves two tasks in the
background, one that looks and one that sweeps. A stop takes them over, raises a flag at which
rounds are discarded, tells the tasks to end, waits until they are over or ends them by force, and
lowers the flag again. Another flag says whether the service runs; a start and a stop change it
last.

Whoever forms a span or a time that is too long fails on the spot. A start fails when everything is
done, if it writes its spans to a log. A stop fails before it waits: it gives the lock back, and
both flags stay up. A task is over when it fails.
-/

namespace NodeWatch.Service

/-- A service in another phase. -/
def inPhase (s : Service) (p : Phase) : Service := { s with phase := p }

/-- A task of the background that is not over. One that looks may wait for a look to end; one that
sweeps is ready when it knows at which times to. -/
structure Task where
  id : Nat
  sweeps : Bool
  look : Option Look := none
  ready : Bool := false

/-- Nobody holds the lock; or a start does, whose tasks have begun; or a stop does, which has taken
the tasks over, has raised the flag, waits until its deadline, or has lowered the flag again. -/
inductive Lock where
  | free
  | starting (ids : List Nat)
  | taken (ids : List Nat)
  | raised (ids : List Nat)
  | waiting (ids : List Nat)
  | lowered
  deriving DecidableEq

/-- A service with its controls. They decide its phase; the one that `core` has means nothing. -/
structure Controls where
  core : Service
  lock : Lock := .free
  /-- The tasks of the last start, until a stop takes them over. -/
  run : Option (List Nat) := none
  running : Bool := false
  stopping : Bool := false
  tasks : List Task := []
  /-- The tasks that have been told to end. -/
  told : List Nat := []
  nextTask : Nat := 0
  /-- The time at which a stop has last looked at the clock. -/
  now : Nat := 0

namespace Controls

/-- The phase that the controls stand for. -/
def phase (c : Controls) : Phase :=
  if c.core.jammed then .stopping
  else
    match c.lock, c.run with
    | .free, some _ | .starting _, _ | .taken _, _ => .running
    | .raised _, _ | .waiting _, _ => .stopping
    | .free, none | .lowered, _ => .stopped

/-- The service as it is without the controls. -/
def view (c : Controls) : Service := c.core.inPhase c.phase

/-- The service as a round finds it: all that counts is whether the flag is up. -/
def gated (c : Controls) : Service := c.core.inPhase (if c.stopping then .stopping else .running)

/-- The service as it is shown: all that counts is whether it counts as running. -/
def shown (c : Controls) : Service := c.core.inPhase (if c.running then .running else .stopped)

def task? (c : Controls) (id : Nat) : Option Task := c.tasks.find? (·.id = id)

/-- A task begins to wait for a look, or has waited for it. -/
def setLook (c : Controls) (id : Nat) (look : Option Look) : Controls :=
  { c with tasks := c.tasks.map fun t => if t.id = id then { t with look } else t }

/-- A task knows when to sweep. -/
def setReady (c : Controls) (id : Nat) : Controls :=
  { c with tasks := c.tasks.map fun t => if t.id = id then { t with ready := true } else t }

/-- A task is over. -/
def endTask (c : Controls) (id : Nat) : Controls :=
  { c with tasks := c.tasks.filter (·.id ≠ id) }

/-- A start that gets the lock: its tasks begin, unless those of another are still there. -/
def start (c : Controls) : Except Error Controls :=
  match c.run with
  | some _ => .error .alreadyRunning
  | none => .ok { c with
      lock := .starting [c.nextTask, c.nextTask + 1]
      tasks := c.tasks ++ [{ id := c.nextTask, sweeps := false },
        { id := c.nextTask + 1, sweeps := true }]
      nextTask := c.nextTask + 2 }

/-- A start fails when it writes to a log a span that cannot be told. -/
def failsToLaunch (c : Controls) (logged : Bool) : Bool :=
  logged && !(c.core.settings.hasPeriod && c.core.settings.hasThreshold)

/-- A stop fails when it cannot tell until when to wait. -/
def failsToWait (c : Controls) (now : Nat) : Bool := !c.core.settings.hasDeadline now

/-- A task that sweeps fails when it cannot tell its period, or when to sweep first. -/
def failsToPrepare (c : Controls) (now : Nat) : Bool :=
  !(c.core.settings.hasPeriod && c.core.settings.clock.tells now c.core.settings.sweepPeriod)

/-- A task that is late fails when it cannot tell when its next turn is. -/
def failsToSkip (c : Controls) (sweeps : Bool) (now : Nat) : Bool :=
  let σ := c.core.settings
  !σ.clock.tells now (if sweeps then σ.sweepPeriod else σ.interval)

/-- What neither callers of start and stop do nor the background. -/
def isFree : Action → Bool
  | .ask | .sweep .. | .tell | .subscribe _ | .unsubscribe _ | .take _ | .done _ => true
  | .finish look _ _ => !look.background
  | _ => false

/-- One atomic step of a service with its controls. -/
inductive Turn where
  /-- A start gets the lock. It gives it back at once if it fails. -/
  | start
  /-- The tasks of the start are recorded, the service counts as running, and the lock is given
  back. The spans may be written to a log. -/
  | launch (logged : Bool)
  /-- A stop gets the lock. It gives it back at once if there is nothing to stop. -/
  | stop
  /-- The stop raises the flag and tells the tasks to end. -/
  | raise
  /-- The stop begins to wait until its deadline, or fails and gives the lock back. -/
  | wait (now : Nat)
  /-- All its tasks are over, and the stop lowers the flag. -/
  | lower
  /-- The service does not count as running any more, and the lock is given back. -/
  | leave
  /-- A task gets ready to sweep. -/
  | prepare (id : Nat) (now : Nat)
  /-- A task that waits for its turn finds that it is late. -/
  | skip (id : Nat) (now : Nat)
  /-- A task begins a look, ends it, or sweeps. -/
  | tick (id : Nat)
  | finish (id : Nat) (result : Except Backend.Error (List Observation)) (now : Nat)
  | sweep (id : Nat) (now : Nat) (places : Places)
  /-- A task ends as it has been told. -/
  | quit (id : Nat)
  /-- The stop has waited long enough for a task. -/
  | abort (id : Nat)
  | other (a : Action)

/-- The events and the next state of a step; none if the step cannot be made now. What has been told
to end begins no look any more. A look that begins while the flag is being raised is one that began
before: whether it counts is decided when it ends. -/
def step? (c : Controls) : Turn → Option (List Event × Controls)
  | .start =>
    if c.lock = .free then
      match c.start with
      | .ok c' => some ([], c')
      | .error _ => some ([], c)
    else none
  | .launch _ =>
    match c.lock with
    | .starting ids => some ([], { c with lock := .free, run := some ids, running := true })
    | _ => none
  | .stop =>
    if c.lock = .free then
      match c.run with
      | none => some ([], c)
      | some ids => some ([], { c with run := none, lock := .taken ids })
    else none
  | .raise =>
    match c.lock with
    | .taken ids =>
      some ([], { c with lock := .raised ids, stopping := true, told := c.told ++ ids })
    | _ => none
  | .wait now =>
    match c.lock with
    | .raised ids =>
      if c.now ≤ now then
        if c.failsToWait now then some ([], { c with lock := .free, core := c.core.jam, now })
        else some ([], { c with lock := .waiting ids, now })
      else none
    | _ => none
  | .lower =>
    match c.lock with
    | .waiting ids =>
      if c.tasks.all fun t => t.id ∉ ids then
        some ([], { c with lock := .lowered, stopping := false })
      else none
    | _ => none
  | .leave =>
    if c.lock = .lowered then some ([], { c with lock := .free, running := false }) else none
  | .prepare id now =>
    match c.task? id with
    | some ⟨_, true, _, false⟩ =>
      some ([], if c.failsToPrepare now then c.endTask id else c.setReady id)
    | _ => none
  | .skip id now =>
    match c.task? id with
    | some ⟨_, sweeps, none, _⟩ =>
      some ([], if c.failsToSkip sweeps now then c.endTask id else c)
    | _ => none
  | .tick id =>
    match c.task? id with
    | some ⟨_, false, none, _⟩ =>
      if id ∈ c.told then none
      else
        let (look, core) := c.core.beginLook true
        some ([], { c with core }.setLook id (some look))
    | _ => none
  | .finish id result now =>
    match c.task? id with
    | some ⟨_, _, some look, _⟩ =>
      if c.core.outbox = [] then
        let (es, core) := c.gated.endLook look result now
        some (es, { c with core }.setLook id none)
      else none
    | _ => none
  | .sweep id now places =>
    match c.task? id with
    | some ⟨_, true, _, true⟩ =>
      if c.core.outbox = [] then
        if c.gated.canSweep then
          let (es, core) := c.gated.sweep now places
          some (es, { c with core })
        else some ([], c.endTask id)
      else none
    | _ => none
  | .quit id =>
    match c.task? id with
    | some ⟨_, _, none, _⟩ => if id ∈ c.told then some ([], c.endTask id) else none
    | _ => none
  | .abort id =>
    match c.lock, c.task? id with
    | .waiting ids, some t =>
      if id ∈ ids then
        some ([], { c with core := t.look.elim c.core c.core.closeLook }.endTask id)
      else none
    | _, _ => none
  | .other a =>
    if isFree a then (c.gated.step? a).map fun (es, core) => (es, { c with core }) else none

end Controls

end NodeWatch.Service
