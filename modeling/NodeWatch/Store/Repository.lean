import NodeWatch.Store.Memory
import NodeWatch.Store.Sql
import NodeWatch.Store.Sql.File

/-!
A store of either kind, to be used without asking which. Identities of new records are numbers in
the order of their creation.
-/

namespace NodeWatch.Store

/-- Only a table in a file can be opened again and be reached by other programs. -/
inductive Backing where
  | memory (m : Memory)
  | table (t : Sql.Table) (inFile : Bool)

/-- A store and the number of records that it has made. -/
structure Repository where
  backing : Backing
  made : Nat := 0

namespace Repository

def inMemory (hashing : Hashing := .same) : Repository := ⟨.memory (.empty hashing), 0⟩
def inTable (inFile : Bool) : Repository := ⟨.table {} inFile, 0⟩

/-- The store in a file. No row is ever taken out, so that there are as many rows as were made. -/
def ofPlace (p : Sql.Place) : Except Error Repository :=
  p.open.map fun t => ⟨.table t true, t.rows.length⟩

def identity (n : Nat) : String := "#" ++ String.ofList (Text.decimal n)

/-- The call has made a record. -/
def hasMade (op : Operation) (a : op.Answer) : Bool :=
  match op, a with
  | .create _, .ok _ => true
  | _, _ => false

def step (now : Time.Instant) (op : Operation) (r : Repository) : op.Answer × Repository :=
  let stamp : Stamp := ⟨identity (r.made + 1), now⟩
  let (a, backing) : op.Answer × Backing := match r.backing with
    | .memory m => let (a, m) := m.step stamp op; (a, .memory m)
    | .table t inFile => let (a, t) := Sql.step stamp op t; (a, .table t inFile)
  (a, ⟨backing, if hasMade op a then r.made + 1 else r.made⟩)

/-- A change of the store in memory; a table has nothing to change. -/
def inMemoryOnly (r : Repository) (f : Memory → Memory) : Repository :=
  match r.backing with
  | .memory m => { r with backing := .memory (f m) }
  | .table .. => r

def failNext (r : Repository) (n : Nat) : Repository := r.inMemoryOnly ({ · with failures := n })

def setOffline (r : Repository) (b : Bool) : Repository := r.inMemoryOnly ({ · with offline := b })

/-- The number of writes; a table does not count them. -/
def writes? (r : Repository) : Option Nat :=
  match r.backing with
  | .memory m => some m.writes
  | .table .. => none

/-- A change of the table made by others; none without a file. -/
def inFileOnly? (r : Repository) {α : Type} (f : Sql.Table → α × Sql.Table) :
    Option (α × Repository) :=
  match r.backing with
  | .table t true => let (a, t) := f t; some (a, { r with backing := .table t true })
  | _ => none

/-- The file is closed and opened again, and a missing table is made. -/
def reopen? (r : Repository) : Option Repository :=
  (r.inFileOnly? fun t => ((), { t with exists_ := true })).map (·.2)

/-- Another program sets a column. -/
def setColumn? (r : Repository) (id : String) (c : Sql.Column) (v : Sql.Cell) :
    Option (Except Sql.Fault Nat × Repository) :=
  r.inFileOnly? (Sql.Table.exec (.setColumn id c v))

/-- What other programs may do to a table. -/
inductive Sabotage where
  | dropTable
  | blockInserts
  | blockUpdates

def Sabotage.apply : Sabotage → Sql.Table → Sql.Table
  | dropTable, _ => { exists_ := false }
  | blockInserts, t => { t with insertsBlocked := true }
  | blockUpdates, t => { t with updatesBlocked := true }

def sabotage? (r : Repository) (s : Sabotage) : Option Repository :=
  (r.inFileOnly? fun t => ((), s.apply t)).map (·.2)

end Repository

end NodeWatch.Store
