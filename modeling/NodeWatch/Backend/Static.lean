import NodeWatch.Backend.Error
import NodeWatch.NodeName
import NodeWatch.Observation

/-!
Nodes that are listed by their addresses. Every look finds all of them.
-/

namespace NodeWatch.Backend.Static

open Text

/-- The endpoint that a listed address names. -/
def endpoint (raw : String) (resolve : Net.Resolver := .empty) : Except Error Net.Endpoint :=
  let s := trim raw.toList
  match Net.Endpoint.named s resolve with
  | .ok e => .ok e
  | .error f => .error (.invalidAddress (String.ofList s) f.message)

def identity (e : Net.Endpoint) : String := "static:" ++ e.toString

def nodeAt (serviceType : String) (at_ : Time.Instant) (e : Net.Endpoint) : Observation :=
  let name := "static-" ++ String.ofList (NodeName.dashed e.address)
  ((Observation.bare (identity e) name e.address e.port at_).withServiceType serviceType)
    |>.withAttribute Observation.Key.discovery.text "static"

/-- The nodes of a list of addresses, each once, or the error of the first that names no node. -/
def nodes (addresses : List String) (serviceType : String) (at_ : Time.Instant)
    (resolve : Net.Resolver := .empty) : Except Error (List Observation) := do
  let es ← addresses.mapM (endpoint · resolve)
  return Observation.latestById (es.map (nodeAt serviceType at_))

/-- A look at the nodes at an instant. -/
def sample (os : List Observation) (now : Time.Instant) : List Observation := os.map (·.seenAt now)

end NodeWatch.Backend.Static
