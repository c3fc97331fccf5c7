import NodeWatch.Places
import NodeWatch.Store.Operation

/-!
A store in memory, which can be told to fail. It is a hash table, so that of two clashes it tells
the one that it comes upon first.
-/

namespace NodeWatch.Store

/-- Records under distinct identities in the order of their creation; `failures` calls still to
fail; the number of successful writes; where the table puts the identities. -/
structure Memory where
  records : List Record := []
  offline : Bool := false
  failures : Nat := 0
  writes : Nat := 0
  hashing : Hashing := .same

namespace Memory

def empty (hashing : Hashing := .same) : Memory := { hashing }

def find? (m : Memory) (id : String) : Option Record := m.records.find? (·.id = id)

/-- The record in the place of the one with its identity, or at the end. -/
def putInto (r : Record) : List Record → List Record
  | [] => [r]
  | s :: rest => if s.id = r.id then r :: rest else s :: putInto r rest

def put (m : Memory) (r : Record) : Memory := { m with records := putInto r m.records }

def live (m : Memory) : List Record := m.records.filter (·.isLive)

/-- Where the identities are, all of them, also those of deleted records. -/
def places (m : Memory) : Places := m.hashing (m.records.map (·.id))

/-- What a record shares with another live one that must differ: of one record the address counts
before the name. -/
def clash? (m : Memory) (r : Record) : Option Error :=
  (inPlaces m.places (·.id) (m.live.filter (·.id ≠ r.id))).findSome? fun s =>
    if s.address = r.address then some (.duplicate .ip r.address.toString)
    else if s.name = r.name then some (.duplicate .name r.name)
    else none

/-- A successful write. -/
def written (m : Memory) (r : Record) : Memory := { m.put r with writes := m.writes + 1 }

/-- The answer to a call that is not made to fail. -/
def answer (s : Stamp) (op : Operation) (m : Memory) : op.Answer × Memory :=
  match op with
  | .findByAddress a => (.ok (m.live.find? (·.address = a)), m)
  | .findByName n => (.ok (m.live.find? (·.name = n)), m)
  | .create n =>
    let r := n.toRecord s
    match m.clash? r with
    | some e => (.error e, m)
    | none => (.ok r, m.written r)
  | .update id expected p =>
    match m.find? id with
    | none => (.error (.notFound id), m)
    | some r =>
      if r.version ≠ expected then (.error (.conflict id expected r.version), m)
      else if maxVersion ≤ r.version then (.error .versionOverflow, m)
      else
        let r := { p.apply r with version := r.version + 1, updatedAt := s.now }
        match m.clash? r with
        | some e => (.error e, m)
        | none => (.ok r, m.written r)
  | .touch id t =>
    match m.find? id with
    | none => (.error (.notFound id), m)
    | some r => (.ok (), m.put { r with lastSeen := r.lastSeen.latest t })
  | .get id => (.ok (m.find? id), m)
  | .list => (.ok (sortByName m.live), m)
  | .delete id =>
    match m.find? id with
    | some r =>
      if r.isLive then
        if maxVersion ≤ r.version then (.error .versionOverflow, m)
        else
          let r := { r with
            deletedAt := some s.now, updatedAt := s.now, version := r.version + 1 }
          (.ok true, m.written r)
      else (.ok false, m)
    | none => (.ok false, m)

/-- A call, which fails without effect as long as the store has been told to. -/
def step (s : Stamp) (op : Operation) (m : Memory) : op.Answer × Memory :=
  if m.offline then (.error (.unavailable "mock repository offline"), m)
  else match m.failures with
    | n + 1 => (.error (.unavailable "injected failure"), { m with failures := n })
    | 0 => m.answer s op

end Memory

end NodeWatch.Store
