import NodeWatch.Announcement
import NodeWatch.Reconcile
import NodeWatch.Service.Setup
import NodeWatch.Service.Timeline
import NodeWatch.Store.Repository
import NodeWatch.Webhook

/-!
The program at work: a service whose events are reconciled into the records and sent to a web
server.
-/

namespace NodeWatch.Cli

open Text

/-- What the observers of the service work on: the records, the number of events that were
reconciled, and the requests that are still to be sent, the last first. -/
structure Desk where
  records : Store.Repository
  events : Nat := 0
  outbox : List Webhook.Request := []
  reconciler : Nat
  webhook : Option (Nat × Webhook) := none
  now : Time.Instant

namespace Desk

/-- Reconciles an event; a name with a suffix has the number of the event. -/
def reconcile (d : Desk) (e : Event) : Desk :=
  let (_, records) := (Reconcile.reconcile e (NodeName.suffixOf d.events)).run
    (Store.Repository.step d.now) d.records
  { d with records, events := d.events + 1 }

/-- The work of an observer on an event. -/
def handle (id : Nat) (e : Event) (d : Desk) : Handling × Desk :=
  if id = d.reconciler then (.done, d.reconcile e)
  else
    match d.webhook with
    | some (_, w) =>
      (.done, { d with outbox := ((w.request? e d.now).toList) ++ d.outbox })
    | none => (.done, d)

end Desk

/-- A service at work, with its way of looking, the path of its records, and what it announces. -/
structure Running where
  backend : Backend
  path : String
  announcement : Option Announcement
  line : Service.Timeline Desk

namespace Running

/-- A service with its observers, set to work. -/
def make (backend : Backend) (service : Service) (records : Store.Repository) (path : String)
    (webhook : Option Webhook) (announcement : Option Announcement)
    (result : Except Backend.Error (List Observation)) (now : Time.Instant) :
    Except Service.Error Running := do
  let (reconciler, workers) := service.workers.subscribe "reconciler"
  let (webhook, workers) := match webhook with
    | none => (none, workers)
    | some w => let (id, workers) := workers.subscribe Webhook.name; (some (id, w), workers)
  let line ← Service.Timeline.start Desk.handle {
    service := { service with workers }
    audience := { records, reconciler, webhook, now }
    outlook := ⟨result, some 0⟩ }
  return { backend, path, announcement, line }

/-- Goes on for some milliseconds; looks on the way have the given result. -/
def goOn (r : Running) (ms : Nat) (result : Except Backend.Error (List Observation))
    (now : Time.Instant) : Running :=
  let line := { r.line with outlook := ⟨result, some 0⟩, audience.now := now }
  { r with line := line.sleep Desk.handle ms }

def stop (r : Running) : Running := { r with line := r.line.stop Desk.handle }

/-- The records as they are now. -/
def records (r : Running) : Store.Repository := r.line.audience.records

end Running

end NodeWatch.Cli
