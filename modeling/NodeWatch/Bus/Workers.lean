import NodeWatch.Bus
import NodeWatch.Metrics

/-!
The workers of a bus, run by turns on one thread.

A worker that has something to do waits for its turn in the order in which that came about. In its
turn it handles events until its queue is empty or a handler has to wait. Handlers that wait share a
stock of permits and get them in the order of their asking.
-/

namespace NodeWatch

/-- How a handler ends its work on an event: well, badly, or not before it has a permit. -/
inductive Handling where
  | done
  | failed
  | waits

/-- A bus with its workers: those whose turn comes next, those that wait for a permit, and the
permits that nobody has asked for. -/
structure Workers where
  bus : Bus
  metrics : Metrics := {}
  ready : List Nat := []
  waiting : List Nat := []
  permits : Nat := 0

namespace Workers

def subscribe (w : Workers) (name : String) : Nat × Workers :=
  let (id, bus) := w.bus.subscribe name
  (id, { w with bus, ready := w.ready ++ [id] })

def unsubscribe (w : Workers) (id : Nat) : Bool × Workers :=
  let (b, bus) := w.bus.unsubscribe id
  (b, { w with bus })

/-- The idle workers that an event wakes up. -/
def woken (w : Workers) : List Nat :=
  (w.bus.subscribed.filter fun o =>
    w.bus.accepts o && o.handling.isNone && !w.ready.contains o.id).map (·.id)

def publish (w : Workers) (e : Event) : Workers :=
  { w with
    bus := w.bus.publish e
    metrics := w.bus.missedBy.foldl (fun m o => m.observerDrop o.name) w.metrics
    ready := w.ready ++ w.woken }

variable {σ : Type} (handle : Nat → Event → σ → Handling × σ)

/-- One turn of a worker, in which it takes at most `fuel` events. -/
def turn (id : Nat) : (fuel : Nat) → Workers → σ → Workers × σ
  | 0, w, s => (w, s)
  | n + 1, w, s =>
    match w.bus.take? id with
    | none => (w, s)
    | some (e, bus) =>
      let w := { w with bus }
      let (h, s) := handle id e s
      match h with
      | .done => turn id n { w with bus := w.bus.finish id } s
      | .failed =>
        let name := ((w.bus.find? id).map (·.name)).getD ""
        turn id n
          { w with bus := w.bus.finish id, metrics := w.metrics.observerFailure name } s
      | .waits =>
        match w.permits with
        | 0 => ({ w with waiting := w.waiting ++ [id] }, s)
        | p + 1 => turn id n { w with bus := w.bus.finish id, permits := p } s

/-- The number of events in the queues. -/
def backlog (w : Workers) : Nat := w.bus.observers.foldl (fun n o => n + o.queue.length) 0

/-- Turns until nobody is ready, in the order of the list. A worker in its turn makes no other one
ready. -/
def turns : List Nat → Workers → σ → Workers × σ
  | [], w, s => (w, s)
  | id :: ids, w, s =>
    -- A worker that had waited has its permit now.
    let w := { w with bus := w.bus.finish id }
    let (w, s) := turn handle id (w.backlog + 1) w s
    turns ids w s

/-- Lets all workers run that can. -/
def settle (w : Workers) (s : σ) : Workers × σ :=
  turns handle w.ready { w with ready := [] } s

/-- Gives out permits: first to those that wait, in their order. -/
def release (w : Workers) (n : Nat) : Workers :=
  let granted := w.waiting.take n
  { w with
    ready := w.ready ++ granted
    waiting := w.waiting.drop n
    permits := w.permits + (n - granted.length) }

end Workers

end NodeWatch
