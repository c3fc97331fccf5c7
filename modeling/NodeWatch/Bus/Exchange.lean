import NodeWatch.Bus

/-!
A bus while it is at work.

An event is published by offering it to one observer after the other. Meanwhile nobody comes or
goes, but workers take events and get through with them at any time.
-/

namespace NodeWatch

namespace Bus

/-- Offers an event to one observer; it is queued if there is room. -/
def offer (b : Bus) (id : Nat) (e : Event) : Bool × Bus :=
  match b.find? id with
  | none => (false, b)
  | some o =>
    if b.accepts o then (true, b.modify id fun o => { o with queue := o.queue ++ [e] })
    else (false, b)

end Bus

/-- An event that is being published: to whom it is still to be offered, and how many have accepted
it. -/
structure Posting where
  event : Event
  rest : List Nat
  delivered : Nat := 0

structure Exchange where
  bus : Bus
  posting : Option Posting := none

namespace Exchange

/-- One atomic step of a bus at work. -/
inductive Action where
  | publish (e : Event)
  /-- The event is offered to the next observer. -/
  | offer
  /-- It has been offered to all; the number of those that have accepted it is returned. -/
  | conclude
  | subscribe (name : String)
  | unsubscribe (id : Nat)
  /-- An idle worker takes the first event of its queue. -/
  | take (id : Nat)
  /-- A worker is through with its event: it has handled it, has failed, or has panicked. -/
  | finish (id : Nat)

/-- The next state; none if the step cannot be made now. -/
def step? (x : Exchange) : Action → Option Exchange
  | .publish e =>
    match x.posting with
    | none => some { x with posting := some ⟨e, x.bus.subscribed.map (·.id), 0⟩ }
    | some _ => none
  | .offer =>
    match x.posting with
    | some ⟨e, id :: rest, n⟩ =>
      let (accepted, bus) := x.bus.offer id e
      some ⟨bus, some ⟨e, rest, if accepted then n + 1 else n⟩⟩
    | _ => none
  | .conclude =>
    match x.posting with
    | some ⟨_, [], _⟩ => some { x with posting := none }
    | _ => none
  | .subscribe name =>
    if x.posting.isNone then some { x with bus := (x.bus.subscribe name).2 } else none
  | .unsubscribe id =>
    if x.posting.isNone then some { x with bus := (x.bus.unsubscribe id).2 } else none
  | .take id => (x.bus.take? id).map fun (_, bus) => { x with bus }
  | .finish id =>
    match x.bus.find? id with
    | some { handling := some _, .. } => some { x with bus := x.bus.finish id }
    | _ => none

end Exchange

end NodeWatch
