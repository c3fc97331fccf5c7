import NodeWatch.Event

/-!
Telling observers about events.

Every observer has a bounded queue and a worker that takes events from it one by one. Publishing
never waits: an observer whose queue is full misses the event, and no other observer notices.
-/

namespace NodeWatch

/-- An observer. Once it is no longer subscribed its worker goes on until the queue is empty. -/
structure Observer where
  id : Nat
  name : String
  subscribed : Bool := true
  queue : List Event := []
  handling : Option Event := none

/-- Observers in the order of their subscription, and the next identity to give. -/
structure Bus where
  capacity : Nat
  observers : List Observer := []
  nextId : Nat := 1

namespace Bus

/-- A queue has room for one event at least. -/
def ofCapacity (n : Nat) : Bus := { capacity := max 1 n }

def defaultCapacity : Nat := 256

def subscribed (b : Bus) : List Observer := b.observers.filter (·.subscribed)

def size (b : Bus) : Nat := b.subscribed.length

def find? (b : Bus) (id : Nat) : Option Observer := b.observers.find? (·.id = id)

def modify (b : Bus) (id : Nat) (f : Observer → Observer) : Bus :=
  { b with observers := b.observers.map fun o => if o.id = id then f o else o }

def subscribe (b : Bus) (name : String) : Nat × Bus :=
  (b.nextId, { b with
    observers := b.observers ++ [{ id := b.nextId, name }], nextId := b.nextId + 1 })

def unsubscribe (b : Bus) (id : Nat) : Bool × Bus :=
  (b.subscribed.any (·.id = id), b.modify id fun o => { o with subscribed := false })

/-- The queue has room for one more. -/
def accepts (b : Bus) (o : Observer) : Bool := o.queue.length < b.capacity

/-- Queues an event for each subscribed observer that has room. -/
def publish (b : Bus) (e : Event) : Bus :=
  { b with observers := b.observers.map fun o =>
      if o.subscribed && b.accepts o then { o with queue := o.queue ++ [e] } else o }

/-- How many observers an event reaches if it is published now. -/
def acceptedBy (b : Bus) : Nat := b.subscribed.countP b.accepts

/-- Those that miss it. -/
def missedBy (b : Bus) : List Observer := b.subscribed.filter fun o => !b.accepts o

/-- An idle worker takes the first event of its queue. -/
def take? (b : Bus) (id : Nat) : Option (Event × Bus) :=
  match b.find? id with
  | some { handling := none, queue := e :: _, .. } =>
    some (e, b.modify id fun o => { o with queue := o.queue.tail, handling := some e })
  | _ => none

/-- A worker is through with its event, well or badly. -/
def finish (b : Bus) (id : Nat) : Bus := b.modify id fun o => { o with handling := none }

end Bus

end NodeWatch
