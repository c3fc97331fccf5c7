import NodeWatch.Observation.Json
import NodeWatch.Store.Record

/-!
Records as JSON.
-/

namespace NodeWatch.Store.Record

open Json

def json (r : Record) : Json :=
  .obj [
    ("id", .str r.id),
    ("name", .str r.name),
    ("ip", .str r.address.toString),
    ("mac", .optStr r.mac),
    ("status", .str r.status.text),
    ("role", .str r.role.text),
    ("architecture", .str r.architecture),
    ("model", .str r.model),
    ("cpu_cores", .nat r.cpuCores.toNat),
    ("memory_mb", .nat r.memoryMb.toNat),
    ("last_seen", .str r.lastSeen.toString),
    ("cluster_id", .optStr r.clusterId),
    ("created_at", .str r.createdAt.toString),
    ("updated_at", .str r.updatedAt.toString),
    ("deleted_at", .optStr (r.deletedAt.map (·.toString))),
    ("version", .nat r.version)]

def fieldNames : List String :=
  ["id", "name", "ip", "mac", "status", "role", "architecture", "model", "cpu_cores", "memory_mb",
    "last_seen", "cluster_id", "created_at", "updated_at", "deleted_at", "version"]

def ofJson? (v : Json) : Option Record := do
  let fs ← record? fieldNames v
  return {
    id := ← required? fs "id" asText?
    name := ← required? fs "name" asText?
    address := ← required? fs "ip" Observation.addressOfJson?
    mac := ← withDefault? fs "mac" none (asOption? asText?)
    status := ← required? fs "status" (·.asCase?.bind Status.ofText?)
    role := ← required? fs "role" (·.asCase?.bind Role.ofText?)
    architecture := ← required? fs "architecture" asText?
    model := ← required? fs "model" asText?
    cpuCores := .ofNat (← required? fs "cpu_cores" (asNat? Text.u32Max))
    memoryMb := .ofNat (← required? fs "memory_mb" (asNat? Text.u64Max))
    lastSeen := ← required? fs "last_seen" Observation.instantOfJson?
    clusterId := ← withDefault? fs "cluster_id" none (asOption? asText?)
    createdAt := ← required? fs "created_at" Observation.instantOfJson?
    updatedAt := ← required? fs "updated_at" Observation.instantOfJson?
    deletedAt := ← withDefault? fs "deleted_at" none (asOption? Observation.instantOfJson?)
    version := ← required? fs "version" (asNat? Text.u64Max) }

end NodeWatch.Store.Record
