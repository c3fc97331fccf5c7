import NodeWatch.Event
import NodeWatch.Observation.Json

/-!
Events as JSON: the event itself, and the message that tells others about it.
-/

namespace NodeWatch

open Json

def EventKind.ofJson? (v : Json) : Option EventKind := v.asCase?.bind EventKind.ofText?

namespace Event

def json (e : Event) : Json := .obj [("kind", .str e.kind.text), ("node", e.node.json)]

def ofJson? (v : Json) : Option Event := do
  let fs ← record? ["kind", "node"] v
  return ⟨← required? fs "kind" EventKind.ofJson?, ← required? fs "node" Observation.ofJson?⟩

/-- The message about an event, sent out at an instant. -/
def payload (e : Event) (emitted : String) : Json :=
  .obj [("event", .str e.kind.text), ("node", e.node.json), ("emitted_at", .str emitted)]

end Event

end NodeWatch
