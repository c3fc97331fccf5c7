import NodeWatch.Store.Error
import NodeWatch.Store.Sql.Cell

/-!
Records as rows of a table, and rows read back as records.

Instants are kept as text, numbers as integers of 64 bits with sign; a negative one reads as zero.
-/

namespace NodeWatch.Store.Sql

inductive Column where
  | id
  | name
  | ip
  | mac
  | status
  | role
  | architecture
  | model
  | cpuCores
  | memoryMb
  | lastSeen
  | clusterId
  | createdAt
  | updatedAt
  | deletedAt
  | version
  deriving DecidableEq

namespace Column

def all : List Column :=
  [id, name, ip, mac, status, role, architecture, model, cpuCores, memoryMb, lastSeen, clusterId,
    createdAt, updatedAt, deletedAt, version]

def text : Column → String
  | id => "id"
  | name => "name"
  | ip => "ip"
  | mac => "mac"
  | status => "status"
  | role => "role"
  | architecture => "architecture"
  | model => "model"
  | cpuCores => "cpu_cores"
  | memoryMb => "memory_mb"
  | lastSeen => "last_seen"
  | clusterId => "cluster_id"
  | createdAt => "created_at"
  | updatedAt => "updated_at"
  | deletedAt => "deleted_at"
  | version => "version"

/-- The column of a name; case does not count. -/
def ofText? (s : String) : Option Column := all.find? (·.text = s.toLower)

def affinity : Column → Affinity
  | cpuCores | memoryMb | version => .integer
  | _ => .text

def isNullable : Column → Bool
  | id | mac | clusterId | deletedAt => true
  | _ => false

end Column

/-- One cell for each column. -/
abbrev Row := Column → Cell

namespace Row

def set (r : Row) (c : Column) (v : Cell) : Row := fun d => if d = c then v else r d

def optText : Option String → Cell
  | none => .null
  | some s => .text s

def instantText (t : Time.Instant) : String := String.ofList t.offsetText

/-- A record as a row. -/
def ofRecord (r : Record) : Row
  | .id => .text r.id
  | .name => .text r.name
  | .ip => .text r.address.toString
  | .mac => optText r.mac
  | .status => .text r.status.text
  | .role => .text r.role.text
  | .architecture => .text r.architecture
  | .model => .text r.model
  | .cpuCores => .integer r.cpuCores.toNat
  | .memoryMb => .integer (signed r.memoryMb.toNat)
  | .lastSeen => .text (instantText r.lastSeen)
  | .clusterId => optText r.clusterId
  | .createdAt => .text (instantText r.createdAt)
  | .updatedAt => .text (instantText r.updatedAt)
  | .deletedAt => optText (r.deletedAt.map instantText)
  | .version => .integer (signed r.version)

def isLive (r : Row) : Bool := r .deletedAt = .null

/-- The cells of a row with the types of their columns. -/
structure Typed where
  id : String
  name : String
  ip : String
  mac : Option String
  status : String
  role : String
  architecture : String
  model : String
  cpuCores : UInt32
  memoryMb : Int
  lastSeen : String
  clusterId : Option String
  createdAt : String
  updatedAt : String
  deletedAt : Option String
  version : Int

/-- A cell of another type than its column wants is a fault of the database. -/
def typeFault : Error := .database ⟨20, "datatype mismatch"⟩

def textOf (r : Row) (c : Column) : Except Error String :=
  match r c with
  | .text s => .ok s
  | _ => .error typeFault

def optTextOf (r : Row) (c : Column) : Except Error (Option String) :=
  match r c with
  | .null => .ok none
  | .text s => .ok (some s)
  | _ => .error typeFault

def integerOf (r : Row) (c : Column) : Except Error Int :=
  match r c with
  | .integer n => .ok n
  | _ => .error typeFault

def typed (r : Row) : Except Error Typed := do
  let n ← r.integerOf .cpuCores
  return {
    id := ← r.textOf .id
    name := ← r.textOf .name
    ip := ← r.textOf .ip
    mac := ← r.optTextOf .mac
    status := ← r.textOf .status
    role := ← r.textOf .role
    architecture := ← r.textOf .architecture
    model := ← r.textOf .model
    cpuCores := ← if 0 ≤ n ∧ n ≤ Text.u32Max then .ok (.ofNat n.toNat) else .error typeFault
    memoryMb := ← r.integerOf .memoryMb
    lastSeen := ← r.textOf .lastSeen
    clusterId := ← r.optTextOf .clusterId
    createdAt := ← r.textOf .createdAt
    updatedAt := ← r.textOf .updatedAt
    deletedAt := ← r.optTextOf .deletedAt
    version := ← r.integerOf .version }

def addressOf (s : String) : Except Error Net.Address :=
  match Net.Address.ofString? s with
  | some a => .ok a
  | none => .error (.corrupt (.address s))

def instantOf (s : String) : Except Error Time.Instant :=
  match Time.Instant.read s.toList with
  | .ok t => .ok t
  | .error f => .error (.corrupt (.instant s f))

/-- The record that a row with the right types holds. -/
def Typed.record (t : Typed) : Except Error Record := do
  let address ← addressOf t.ip
  let status ← statusOf t.status
  let role ← roleOf t.role
  let lastSeen ← instantOf t.lastSeen
  let createdAt ← instantOf t.createdAt
  let updatedAt ← instantOf t.updatedAt
  let deletedAt ← t.deletedAt.mapM instantOf
  return {
    id := t.id
    name := t.name
    address
    mac := t.mac
    status
    role
    architecture := t.architecture
    model := t.model
    cpuCores := t.cpuCores
    memoryMb := .ofNat t.memoryMb.toNat
    lastSeen
    clusterId := t.clusterId
    createdAt
    updatedAt
    deletedAt
    version := t.version.toNat }

def record (r : Row) : Except Error Record := r.typed >>= Typed.record

end Row

end NodeWatch.Store.Sql
