import NodeWatch.Service

/-!
A service on a clock that moves only when it is told to. Whatever becomes due on the way happens at
its time; whoever can work has done so before time goes on. Of what is due at one instant the ends
of looks come first, then what was set earlier.
-/

namespace NodeWatch.Service

/-- What a look that begins now will bring, and after how many ticks; none is never. -/
structure Outlook where
  result : Except Backend.Error (List Observation)
  takes : Option Nat

/-- A look of the background that is under way, with its end. -/
structure Pending where
  look : Look
  result : Except Backend.Error (List Observation)
  endsAt : Nat

/-- Something that is due at a time; `order` tells what was set earlier than what. -/
structure Alarm where
  at_ : Nat
  order : Nat

/-- The service with its observers, the time, and when the background looks and sweeps next. After a
stop that has failed, looks of an earlier background may still be under way. -/
structure Timeline (σ : Type) where
  service : Service
  audience : σ
  outlook : Outlook := ⟨.ok [], some 0⟩
  now : Nat := 0
  pending : List Pending := []
  nextTick : Option Alarm := none
  nextSweep : Option Alarm := none
  alarmsSet : Nat := 0
  looksBegun : Nat := 0

namespace Timeline

variable {σ : Type} (handle : Nat → Event → σ → Handling × σ)

/-- All observers that can work do so. -/
def settle (t : Timeline σ) : Timeline σ :=
  let (workers, audience) := t.service.workers.settle handle t.audience
  { t with service := { t.service with workers }, audience }

/-- A look that takes longer than the timeout ends there. -/
def beginLook (t : Timeline σ) (background : Bool) : Pending × Timeline σ :=
  let (look, service) := t.service.beginLook background
  let timeout := t.service.settings.timeout
  let span := t.service.settings.clock.span timeout
  let late : Pending := ⟨look, .error (.timeout span), t.now + timeout⟩
  let pending := match t.outlook.takes with
    | some n => if n ≤ timeout then ⟨look, t.outlook.result, t.now + n⟩ else late
    | none => late
  (pending, { t with service, looksBegun := t.looksBegun + 1 })

def endLook (t : Timeline σ) (p : Pending) : List Event × Timeline σ :=
  let (es, service) := t.service.endLook p.look p.result t.now
  (es, settle handle { t with service := service.tellAll })

/-- An alarm at a time, set now. -/
def alarm (t : Timeline σ) (at_ : Nat) : Alarm := ⟨at_, t.alarmsSet⟩

def setTick (t : Timeline σ) (at_ : Nat) : Timeline σ :=
  { t with nextTick := some (t.alarm at_), alarmsSet := t.alarmsSet + 1 }

/-- The next sweep is a period away; there is none if that is a time that cannot be told. -/
def setSweep (t : Timeline σ) : Timeline σ :=
  let σ := t.service.settings
  if σ.hasPeriod && σ.clock.tells t.now σ.sweepPeriod then
    { t with
      nextSweep := some (t.alarm (t.now + σ.sweepPeriod))
      alarmsSet := t.alarmsSet + 1 }
  else { t with nextSweep := none }

/-- What the background has to do next. -/
inductive Due where
  | look (p : Pending)
  | tick
  | sweep

/-- The first of what is due, not after the limit, with its time. -/
def due? (t : Timeline σ) (limit : Nat) : Option (Nat × Due) :=
  let alarms := (t.nextTick.map (·, Due.tick)).toList ++ (t.nextSweep.map (·, Due.sweep)).toList
  let looks := t.pending.map fun p => (p.endsAt, Due.look p)
  let byOrder := (alarms.mergeSort fun a b => a.1.order ≤ b.1.order).map fun (a, d) => (a.at_, d)
  let first := (looks ++ byOrder).foldl (fun best d =>
    match best with
    | none => some d
    | some b => if d.1 < b.1 then some d else some b) (none : Option (Nat × Due))
  first.filter (·.1 ≤ limit)

/-- A look is not under way any more. -/
def drop (t : Timeline σ) (p : Pending) : Timeline σ :=
  { t with pending := t.pending.filter (·.look ≠ p.look) }

/-- A sweep that cannot be made has no effect. -/
def sweep (t : Timeline σ) : List Event × Timeline σ :=
  if t.service.canSweep then
    let (es, service) := t.service.sweep t.now .same
    (es, settle handle { t with service := service.tellAll })
  else ([], t)

/-- The next tick is set when a look begins, and counts as set when the look has ended. A background
that cannot sweep does not try again. -/
def perform (t : Timeline σ) : Due → Timeline σ
  | .look p =>
    let t := (endLook handle (t.drop p) p).2
    (t.nextTick.map fun a => t.setTick a.at_).getD t
  | .tick =>
    let (p, t) := t.beginLook true
    { t with pending := t.pending ++ [p] }.setTick (t.now + t.service.settings.interval)
  | .sweep =>
    if t.service.canSweep then (sweep handle t).2.setSweep else { t with nextSweep := none }

/-- Goes on to a time, in at most `fuel` steps of the background. -/
def advanceWith (limit : Nat) : (fuel : Nat) → Timeline σ → Timeline σ
  | 0, t => { t with now := limit }
  | n + 1, t =>
    match t.due? limit with
    | none => { t with now := limit }
    | some (at_, d) => advanceWith limit n (perform handle { t with now := at_ } d)

/-- Goes on to a time. The background makes at most three steps in an interval. -/
def advance (t : Timeline σ) (limit : Nat) : Timeline σ :=
  let intervals := (limit - t.now) / t.service.settings.interval + 2
  advanceWith handle limit (3 * intervals + t.pending.length) t

def sleep (t : Timeline σ) (ticks : Nat) : Timeline σ := advance handle t (t.now + ticks)

/-- Lets happen what is due at once. -/
def breathe (t : Timeline σ) : Timeline σ := advance handle (settle handle t) t.now

/-- Looks for a caller and waits for the end. -/
def cycle (t : Timeline σ) : List Event × Timeline σ :=
  let (p, t) := t.beginLook false
  endLook handle (advance handle t p.endsAt) p

/-- The last start has left its background, and no stop has come since. -/
def hasBackground (t : Timeline σ) : Bool := t.nextTick.isSome

/-- The background looks at once and sweeps after a period. -/
def start (t : Timeline σ) : Except Error (Timeline σ) :=
  if t.hasBackground then .error .alreadyRunning
  else
    let service := t.service.start.toOption.getD t.service
    .ok (breathe handle ({ t with service }.setTick t.now)).setSweep

/-- A start that writes its spans to a log cannot tell them. -/
def startFails (t : Timeline σ) (logged : Bool) : Bool :=
  logged && !(t.service.settings.hasPeriod && t.service.settings.hasThreshold)

/-- Waits for a look of the background until a deadline, and then abandons it. -/
def await (t : Timeline σ) (deadline : Nat) (p : Pending) : Timeline σ :=
  if p.endsAt ≤ deadline then (endLook handle { t.drop p with now := max t.now p.endsAt } p).2
  else { t.drop p with now := deadline, service := t.service.closeLook p.look }

/-- A stop at this time cannot tell until when to wait. -/
def stopFails (t : Timeline σ) : Bool :=
  t.hasBackground && !t.service.settings.hasDeadline t.now

/-- Waits for the look of the background, but not longer than the grace period. A stop that fails
leaves it under way. -/
def stop (t : Timeline σ) : Timeline σ :=
  if !t.hasBackground then t
  else
    let s := t.service.beginStop
    let t' := { t with service := s, nextTick := none, nextSweep := none }
    if t.stopFails then { t' with service := s.jam }
    else
      let t' := t'.pending.foldl (await handle · (t.now + s.settings.grace)) t'
      { t' with service := t'.service.endStop }

end Timeline

end NodeWatch.Service
