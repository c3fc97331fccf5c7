import NodeWatch.Json.Decode
import NodeWatch.Observation
import NodeWatch.Time.Instant.Text

/-!
Observations as JSON.
-/

namespace NodeWatch.Observation

open Json

def json (o : Observation) : Json :=
  .obj [
    ("id", .str o.id),
    ("name", .str o.name),
    ("ip", .str o.address.toString),
    ("port", .nat o.port.toNat),
    ("service_type", .str o.serviceType),
    ("metadata", .obj (o.metadata.entries.map fun (k, v) => (k, .str v))),
    ("capabilities", .strs o.capabilities),
    ("last_seen", .str o.lastSeen.toString)]

def addressOfJson? (v : Json) : Option Net.Address := v.asText?.bind Net.Address.ofString?

def instantOfJson? (v : Json) : Option Time.Instant := v.asText?.bind Time.Instant.ofString?

def attributesOfJson? : Json → Option Attributes
  | .obj fs => (fs.mapM fun ((k, v) : String × Json) => v.asText?.map (k, ·)).map Attributes.ofList
  | _ => none

def fieldNames : List String :=
  ["id", "name", "ip", "port", "service_type", "metadata", "capabilities", "last_seen"]

def ofJson? (v : Json) : Option Observation := do
  let fs ← record? fieldNames v
  return {
    id := ← required? fs "id" asText?
    name := ← required? fs "name" asText?
    address := ← required? fs "ip" addressOfJson?
    port := .ofNat (← required? fs "port" (asNat? Text.u16Max))
    serviceType := ← required? fs "service_type" asText?
    metadata := ← withDefault? fs "metadata" .empty attributesOfJson?
    capabilities := ← withDefault? fs "capabilities" [] (asList? asText?)
    lastSeen := ← required? fs "last_seen" instantOfJson? }

end NodeWatch.Observation
