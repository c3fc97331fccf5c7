import NodeWatch.Json.Lookup
import NodeWatch.Store.Error
import NodeWatch.Store.Record.Json

/-!
New records and changes of records as people write them: in JSON, with everything left out that they
do not care about.
-/

namespace NodeWatch.Store

open Json

inductive InputFault where
  | address
  | instant
  | value (e : Error)
  deriving DecidableEq

/-- A text that must name a value, if it is there. -/
def namedAt {α : Type} (v : Json) (k : String) (of : String → Except Error α) :
    Except InputFault (Option α) :=
  match v.textAt? k with
  | none => .ok none
  | some s => match of s with
    | .ok a => .ok (some a)
    | .error e => .error (.value e)

def instantAt (v : Json) (k : String) : Except InputFault (Option Time.Instant) :=
  match v.textAt? k with
  | none => .ok none
  | some s => match Time.Instant.ofString? s with
    | some t => .ok (some t)
    | none => .error .instant

def addressAt (v : Json) (k : String) : Except InputFault Net.Address :=
  match Net.Address.ofString? (v.textAt k) with
  | some a => .ok a
  | none => .error .address

/-- A new record; `unsaid` is the last sign of life where none is given. -/
def NewRecord.ofInput (v : Json) (unsaid : Time.Instant) : Except InputFault NewRecord := do
  let address ← addressAt v "ip"
  let status ← namedAt v "status" statusOf
  let role ← namedAt v "role" roleOf
  let lastSeen ← instantAt v "last_seen"
  return {
    name := v.textAt "name"
    address
    mac := v.textAt? "mac"
    status := status.getD .discovered
    role := role.getD .worker
    architecture := (v.textAt? "architecture").getD unknownText
    model := (v.textAt? "model").getD unknownText
    cpuCores := .ofNat (v.natAt "cpu_cores")
    memoryMb := .ofNat (v.natAt "memory_mb")
    lastSeen := lastSeen.getD unsaid
    clusterId := v.textAt? "cluster_id" }

def Patch.ofInput (v : Json) : Except InputFault Patch := do
  let status ← namedAt v "status" statusOf
  let role ← namedAt v "role" roleOf
  let lastSeen ← instantAt v "last_seen"
  return {
    name := v.textAt? "name"
    mac := v.textAt? "mac"
    status
    role
    architecture := v.textAt? "architecture"
    model := v.textAt? "model"
    cpuCores := (v.natAt? "cpu_cores").map (.ofNat ·)
    memoryMb := (v.natAt? "memory_mb").map (.ofNat ·)
    lastSeen
    clusterId := v.textAt? "cluster_id" }

/-- A whole record, in which all but identity, name and address may be left out. -/
def Record.ofInput? (v : Json) (unsaid : Time.Instant) : Option Record :=
  (v.filled? [("mac", .null), ("cluster_id", .null), ("deleted_at", .null),
    ("status", .str Status.discovered.text), ("role", .str Role.worker.text),
    ("architecture", .str unknownText), ("model", .str unknownText), ("cpu_cores", .nat 0),
    ("memory_mb", .nat 0), ("last_seen", .str unsaid.toString),
    ("created_at", .str unsaid.toString), ("updated_at", .str unsaid.toString),
    ("version", .nat 1)]).bind ofJson?

/-- What of a record is shown: all but the times at which it was written, and whether it is
deleted instead of when. -/
def Record.summary (r : Record) : Json :=
  .obj [("id", .str r.id), ("name", .str r.name), ("ip", .str r.address.toString),
    ("mac", .optStr r.mac), ("status", .str r.status.text), ("role", .str r.role.text),
    ("architecture", .str r.architecture), ("model", .str r.model),
    ("cpu_cores", .nat r.cpuCores.toNat), ("memory_mb", .nat r.memoryMb.toNat),
    ("last_seen", .str r.lastSeen.toString), ("cluster_id", .optStr r.clusterId),
    ("deleted", .bool !r.isLive), ("version", .nat r.version)]

end NodeWatch.Store
