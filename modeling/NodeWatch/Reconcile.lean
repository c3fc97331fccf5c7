import NodeWatch.Metrics
import NodeWatch.NodeName
import NodeWatch.Reconcile.Outcome
import NodeWatch.Store.Operation

/-!
Bringing the records in line with an event.

A node that is seen gets a record or has its record refreshed; a node that is lost has its record
marked unknown. A write that loses against another writer is tried once more on the record as it is
then.
-/

namespace NodeWatch.Reconcile

open Store

/-- How often a conditional write is made. -/
def attempts : Nat := 2

/-- What an observation changes in a record. If that is anything, the sign of life comes with it. -/
def refreshPatch (r : Record) (o : Observation) : Patch :=
  let p : Patch :=
    { architecture := o.architecture?.filter (· ≠ r.architecture)
      model := o.model?.filter (· ≠ r.model)
      status := if r.status = .unknown then some .discovered else none }
  if p.isEmpty then p else { p with lastSeen := some o.lastSeen }

def conflictsExhausted : Store.Error := .unavailable "conflict retries exhausted"

/-- Brings a record in line with an observation, in at most `left` writes. -/
def refresh (o : Observation) : (left : Nat) → Record → Session (Except Store.Error Outcome)
  | 0, _ => return .error conflictsExhausted
  | left + 1, r =>
    let p := refreshPatch r o
    if p.isEmpty then do
      match ← Program.call (Operation.touch r.id o.lastSeen) with
      | .error e => return .error e
      | .ok _ => return .ok .refreshed
    else do
      match ← Program.call (Operation.update r.id r.version p) with
      | .ok _ => return .ok (if p.status = some .discovered then .recovered else .updated)
      | .error (.conflict id e a) =>
        if left = 0 then return .error (.conflict id e a)
        else
          match ← Program.call (Operation.get r.id) with
          | .error e => return .error e
          | .ok none => return .error (.notFound r.id)
          | .ok (some r) => refresh o left r
      | .error e => return .error e

/-- The name a node would like: the label of its display name, or one made of its address. -/
def baseName (o : Observation) : List Char :=
  ((o.displayName?.map String.toList).bind NodeName.label?).getD
    ("node-".toList ++ NodeName.dashed o.address)

/-- The names to try in turn: the base, the base with the address unless it ends with it, and the
base with a random suffix. -/
def candidateNames (o : Observation) (suffix : List Char) : List (List Char) :=
  let base := baseName o
  let dashed := NodeName.dashed o.address
  let addressed := if dashed.isSuffixOf base then [] else [NodeName.withSuffix base dashed]
  base :: addressed ++ [NodeName.withSuffix base suffix]

def newRecord (o : Observation) (name : List Char) : NewRecord where
  name := String.ofList name
  address := o.address
  mac := o.attribute? Observation.Key.mac.text
  architecture := o.architecture?.getD unknownText
  model := o.model?.getD unknownText
  lastSeen := o.lastSeen

/-- How a failure of one step ends the whole. -/
def failed (e : Event) {α : Type} : Except Store.Error α → Except Error α
  | .ok a => .ok a
  | .error s => .error (.store e.node.address e.kind s)

/-- Creates a record under the first of the names that is free. If another writer was first with the
address, its record is refreshed. -/
def create (e : Event) : List (List Char) → Session (Except Error Outcome)
  | [] => return .error (.nameExhausted e.node.address)
  | name :: names => do
    match ← Program.call (Operation.create (newRecord e.node name)) with
    | .ok _ => return .ok .created
    | .error (.duplicate .name _) => create e names
    | .error (.duplicate .ip _) =>
      match ← Program.call (Operation.findByAddress e.node.address) with
      | .error s => return failed e (.error s)
      | .ok none => return failed e (.error (.notFound e.node.address.toString))
      | .ok (some r) => return failed e (← refresh e.node attempts r)
    | .error s => return failed e (.error s)

/-- Marks the record of a lost node, in at most `left` writes. -/
def markUnknown (o : Observation) : (left : Nat) → Session (Except Store.Error Outcome)
  | 0 => return .error conflictsExhausted
  | left + 1 => do
    match ← Program.call (Operation.findByAddress o.address) with
    | .error s => return .error s
    | .ok none => return .ok .ignored
    | .ok (some r) =>
      if r.status = .unknown then return .ok .ignored
      else
        match ← Program.call (Operation.update r.id r.version { status := some .unknown }) with
        | .ok _ => return .ok .markedUnknown
        | .error (.conflict id ex a) =>
          if left = 0 then return .error (.conflict id ex a) else markUnknown o left
        | .error s => return .error s

/-- The whole of it for one event; `suffix` is the random end of the last name. -/
def reconcile (e : Event) (suffix : List Char) : Session (Except Error Outcome) :=
  match e.kind with
  | .lost => do return failed e (← markUnknown e.node attempts)
  | .discovered | .updated => do
    match ← Program.call (Operation.findByAddress e.node.address) with
    | .error s => return failed e (.error s)
    | .ok (some r) => return failed e (← refresh e.node attempts r)
    | .ok none => create e (candidateNames e.node suffix)

/-- The outcome as it is counted; an event whose reconciliation fails is dropped. -/
def countedAs : Except Error Outcome → String
  | .ok o => o.text
  | .error _ => "error"

/-- The outcome as it is told to whoever has an event handled. -/
def reported : Except Error Outcome → Option Outcome
  | .ok o => some o
  | .error _ => none

/-- Reconciles an event and counts what came of it. -/
def handle (m : Metrics) (e : Event) (suffix : List Char) : Session (Option Outcome × Metrics) := do
  let x ← reconcile e suffix
  return (reported x, m.reconciled (countedAs x))

end NodeWatch.Reconcile
