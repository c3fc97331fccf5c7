import NodeWatch.Net.Address
import NodeWatch.Time.Instant

/-!
What is kept of a node: the record, the values of a new one, and partial changes.
-/

namespace NodeWatch.Store

/-- Where a node stands in its life. -/
inductive Status where
  | discovered
  | unknown
  | ready
  | maintenance
  | offline
  deriving DecidableEq

namespace Status

def all : List Status := [discovered, unknown, ready, maintenance, offline]

def text : Status → String
  | discovered => "discovered"
  | unknown => "unknown"
  | ready => "ready"
  | maintenance => "maintenance"
  | offline => "offline"

def ofText? (s : String) : Option Status := all.find? (·.text = s)

end Status

inductive Role where
  | worker
  | master
  deriving DecidableEq

namespace Role

def text : Role → String
  | worker => "worker"
  | master => "master"

def ofText? (s : String) : Option Role := [worker, master].find? (·.text = s)

end Role

/-- A node on record. A record with a time of deletion is kept and counts for nothing; the others
are live. -/
structure Record where
  id : String
  name : String
  address : Net.Address
  mac : Option String
  status : Status
  role : Role
  architecture : String
  model : String
  cpuCores : UInt32
  memoryMb : UInt64
  lastSeen : Time.Instant
  clusterId : Option String
  createdAt : Time.Instant
  updatedAt : Time.Instant
  deletedAt : Option Time.Instant
  version : Nat
  deriving DecidableEq

def Record.isLive (r : Record) : Bool := r.deletedAt.isNone

/-- The text for an architecture or a model that nobody has told. -/
def unknownText : String := "unknown"

/-- The values a record starts with. -/
structure NewRecord where
  name : String
  address : Net.Address
  mac : Option String := none
  status : Status := .discovered
  role : Role := .worker
  architecture : String := unknownText
  model : String := unknownText
  cpuCores : UInt32 := 0
  memoryMb : UInt64 := 0
  lastSeen : Time.Instant
  clusterId : Option String := none
  deriving DecidableEq

/-- What a store takes from outside for a call: an identity for a new record, and the time. -/
structure Stamp where
  id : String
  now : Time.Instant

def NewRecord.toRecord (n : NewRecord) (s : Stamp) : Record where
  id := s.id
  name := n.name
  address := n.address
  mac := n.mac
  status := n.status
  role := n.role
  architecture := n.architecture
  model := n.model
  cpuCores := n.cpuCores
  memoryMb := n.memoryMb
  lastSeen := n.lastSeen
  clusterId := n.clusterId
  createdAt := s.now
  updatedAt := s.now
  deletedAt := none
  version := 1

/-- New values for some of the fields. -/
structure Patch where
  name : Option String := none
  mac : Option String := none
  status : Option Status := none
  role : Option Role := none
  architecture : Option String := none
  model : Option String := none
  cpuCores : Option UInt32 := none
  memoryMb : Option UInt64 := none
  lastSeen : Option Time.Instant := none
  clusterId : Option String := none
  deriving DecidableEq

namespace Patch

def isEmpty (p : Patch) : Bool := p = {}

/-- The record with the new values. The time of the last sign of life only moves forward. -/
def apply (p : Patch) (r : Record) : Record :=
  { r with
    name := p.name.getD r.name
    mac := p.mac <|> r.mac
    status := p.status.getD r.status
    role := p.role.getD r.role
    architecture := p.architecture.getD r.architecture
    model := p.model.getD r.model
    cpuCores := p.cpuCores.getD r.cpuCores
    memoryMb := p.memoryMb.getD r.memoryMb
    lastSeen := (p.lastSeen.map r.lastSeen.latest).getD r.lastSeen
    clusterId := p.clusterId <|> r.clusterId }

end Patch

/-- The greatest version a record can have. -/
def maxVersion : Nat := 18446744073709551615

end NodeWatch.Store
