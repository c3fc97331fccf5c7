import NodeWatch.Reconcile
import NodeWatch.Service
import NodeWatch.Store.Course

/-!
A service and the store that a reconciler keeps in line with its events.

The reconciler is an observer like any other: it takes events from its queue one by one, and the
service goes on while it works on one. An event whose reconciliation fails is dropped.
-/

namespace NodeWatch

open Store

/-- `reconciler` is its identity among the observers. -/
structure Upkeep where
  service : Service
  reconciler : Nat
  store : Repository

namespace Upkeep

/-- A reconciler is subscribed to a service. -/
def begin (s : Service) (store : Repository) : Upkeep :=
  let (reconciler, workers) := s.workers.subscribe "reconciler"
  { service := { s with workers }, reconciler, store }

inductive Action where
  | serve (a : Service.Action)
  /-- The reconciler works on the event it has taken; `suffix` is the random end of the last name
  it may try. -/
  | reconcile (c : Course) (suffix : List Char)

/-- What only the reconciler itself can do. It stays subscribed. -/
def isOwn (u : Upkeep) : Service.Action → Bool
  | .done id | .unsubscribe id => id = u.reconciler
  | _ => false

/-- The event that the reconciler has taken and is not through with. -/
def taken? (u : Upkeep) : Option Event :=
  (u.service.workers.bus.find? u.reconciler).bind (·.handling)

/-- What becomes of an event in a store. -/
def handle (c : Course) (suffix : List Char) (e : Event) (r : Repository) :
    Except Reconcile.Error Reconcile.Outcome × Repository :=
  c.run Repository.step (Reconcile.reconcile e suffix) r

def step? (u : Upkeep) : Action → Option Upkeep
  | .serve a =>
    if u.isOwn a then none else (u.service.step? a).map fun (_, service) => { u with service }
  | .reconcile c suffix =>
    u.taken?.map fun e =>
      let (_, store) := handle c suffix e u.store
      let bus := u.service.workers.bus.finish u.reconciler
      { u with service := { u.service with workers := { u.service.workers with bus } }, store }

end Upkeep

end NodeWatch
