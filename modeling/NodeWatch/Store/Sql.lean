import NodeWatch.Store.Operation
import NodeWatch.Store.Sql.Table

/-!
The store whose records are rows of a table. Each call is a short program of statements; between
two statements of one handle those of other handles may run.
-/

namespace NodeWatch.Store.Sql

/-- A fault of a statement that was to write the record. -/
def Fault.ofWrite (r : Record) : Fault → Error
  | .notUnique .ip => .duplicate .ip r.address.toString
  | .notUnique .name => .duplicate .name r.name
  | .notUnique c => .database ⟨2067, "UNIQUE constraint failed: nodes." ++ c.text⟩
  | .isNull c => .database ⟨1299, "NOT NULL constraint failed: nodes." ++ c.text⟩
  | .noTable => .database ⟨1, "no such table: nodes"⟩
  | .blocked => .database ⟨1811, "blocked"⟩

/-- A fault of any other statement. -/
def Fault.error : Fault → Error
  | .notUnique c => .database ⟨2067, "UNIQUE constraint failed: nodes." ++ c.text⟩
  | .isNull c => .database ⟨1299, "NOT NULL constraint failed: nodes." ++ c.text⟩
  | .noTable => .database ⟨1, "no such table: nodes"⟩
  | .blocked => .database ⟨1811, "blocked"⟩

def lift {α : Type} (f : Fault → Error) : Except Fault α → Except Error α
  | .ok a => .ok a
  | .error e => .error (f e)

/-- The record under a key. -/
def selectRecord (k : Key) : Script (Except Error (Option Record)) := do
  let found : Except Fault (Option Row) ← Program.call (Statement.selectOne k)
  return match found with
    | .error f => .error f.error
    | .ok none => .ok none
    | .ok (some row) => row.record.map some

/-- The statements of a call. -/
def script (s : Stamp) : (op : Operation) → Script op.Answer
  | .findByAddress a => selectRecord (.liveAddress a.toString)
  | .findByName n => selectRecord (.liveName n)
  | .get id => selectRecord (.id id)
  | .create n => do
    let r := n.toRecord s
    let answer : Except Fault Nat ← Program.call (Statement.insert (Row.ofRecord r))
    return (lift (Fault.ofWrite r) answer).map fun _ => r
  | .update id expected p => do
    match ← selectRecord (.id id) with
    | .error e => return .error e
    | .ok none => return .error (.notFound id)
    | .ok (some r) =>
      if r.version ≠ expected then return .error (.conflict id expected r.version)
      else if maxVersion ≤ r.version then return .error .versionOverflow
      else
        let r := { p.apply r with version := r.version + 1, updatedAt := s.now }
        let answer : Except Fault Nat ← Program.call (Statement.replace (Row.ofRecord r))
        return (lift (Fault.ofWrite r) answer).map fun _ => r
  | .touch id t => do
    match ← selectRecord (.id id) with
    | .error e => return .error e
    | .ok none => return .error (.notFound id)
    | .ok (some r) =>
      if r.lastSeen < t then
        let answer : Except Fault Nat ← Program.call (Statement.setLastSeen id (Row.instantText t))
        return (lift Fault.error answer).map fun _ => ()
      else return .ok ()
  | .list => do
    let found : Except Fault (List Row) ← Program.call Statement.selectLive
    return match found with
      | .error f => .error f.error
      | .ok rows => do
        let ts ← rows.mapM Row.typed
        ts.mapM Row.Typed.record
  | .delete id => do
    let answer : Except Fault Nat ← Program.call (Statement.markDeleted id (Row.instantText s.now))
    return (lift Fault.error answer).map fun n => decide (0 < n)

/-- A call on a table that nobody else uses. -/
def step (s : Stamp) (op : Operation) (t : Table) : op.Answer × Table :=
  (script s op).run Table.exec t

end NodeWatch.Store.Sql
