import NodeWatch.Program
import NodeWatch.Store.Sql.Row

/-!
The table of records and the statements that are run on it. A statement is atomic: it has its whole
effect or fails without any.
-/

namespace NodeWatch.Store.Sql

/-- Rows in the order of insertion. The table may be missing, and inserting or changing rows may be
forbidden by a trigger. -/
structure Table where
  rows : List Row := []
  exists_ : Bool := true
  insertsBlocked : Bool := false
  updatesBlocked : Bool := false

/-- How a row is looked for. -/
inductive Key where
  | id (v : String)
  | liveAddress (v : String)
  | liveName (v : String)

def Key.admits : Key → Row → Bool
  | id v, r => r .id = .text v
  | liveAddress v, r => r .ip = .text v && r.isLive
  | liveName v, r => r .name = .text v && r.isLive

inductive Statement where
  | selectOne (k : Key)
  | selectLive
  | insert (r : Row)
  /-- Writes all columns but address and creation of the rows with the identity of the row. -/
  | replace (r : Row)
  | setLastSeen (id : String) (v : String)
  | markDeleted (id : String) (v : String)
  /-- Another program sets one column of the rows with an identity. -/
  | setColumn (id : String) (c : Column) (v : Cell)

/-- Rows that were found, or the number of rows that were changed. -/
def Statement.Result : Statement → Type
  | selectOne _ => Option Row
  | selectLive => List Row
  | insert _ | replace _ | setLastSeen .. | markDeleted .. | setColumn .. => Nat

/-- Why a statement fails. -/
inductive Fault where
  | noTable
  | blocked
  | notUnique (c : Column)
  | isNull (c : Column)
  deriving DecidableEq

abbrev Statement.Answer (s : Statement) : Type := Except Fault s.Result

/-- A program of statements. -/
abbrev Script (α : Type) : Type := Program Statement Statement.Answer α

/-- The text of a cell; an order of texts orders the rows. -/
def Cell.asText : Cell → String
  | .text s => s
  | _ => ""

namespace Table

/-- The first column whose uniqueness the row would break beside the others: the index of names is
asked before that of addresses, that of identities last. -/
def clash? (others : List Row) (r : Row) : Option Column :=
  let taken (c : Column) := others.any fun o => o.isLive && o c = r c
  if r.isLive && taken .name then some .name
  else if r.isLive && taken .ip then some .ip
  else if r .id ≠ .null && others.any (fun o => o .id = r .id) then some .id
  else none

def nullColumn? (r : Row) : Option Column :=
  Column.all.find? fun c => !c.isNullable && r c = .null

/-- Changes the rows that satisfy `p`, one after the other. Each is checked against the rows before
it as they are now and the rows after it as they were. -/
def change (t : Table) (p : Row → Bool) (f : Row → Row) : Except Fault (Nat × List Row) :=
  go [] t.rows
where
  go (done : List Row) : List Row → Except Fault (Nat × List Row)
    | [] => .ok (0, done.reverse)
    | r :: rest =>
      if p r then
        if t.updatesBlocked then .error .blocked
        else
          let r' := f r
          match nullColumn? r' with
          | some c => .error (.isNull c)
          | none =>
            match clash? (done ++ rest) r' with
            | some c => .error (.notUnique c)
            | none => (go (r' :: done) rest).map fun (n, rs) => (n + 1, rs)
      else go (r :: done) rest

/-- An update of the rows that satisfy `p`; a failing one leaves the table as it is. -/
def update (t : Table) (p : Row → Bool) (f : Row → Row) : Except Fault Nat × Table :=
  match t.change p f with
  | .error e => (.error e, t)
  | .ok (n, rows) => (.ok n, { t with rows })

def replaced (new old : Row) : Row
  | .ip => old .ip
  | .createdAt => old .createdAt
  | .id => old .id
  | c => new c

def exec (s : Statement) (t : Table) : s.Answer × Table :=
  match s with
  | .selectOne k =>
    if t.exists_ then (.ok (t.rows.find? k.admits), t) else (.error .noTable, t)
  | .selectLive =>
    if t.exists_ then
      (.ok ((t.rows.filter (·.isLive)).mergeSort fun a b =>
        (a .name).asText ≤ (b .name).asText), t)
    else (.error .noTable, t)
  | .insert r =>
    if !t.exists_ then (.error .noTable, t)
    else if t.insertsBlocked then (.error .blocked, t)
    else match clash? t.rows r with
      | some c => (.error (.notUnique c), t)
      | none => (.ok (1 : Nat), { t with rows := t.rows ++ [r] })
  | .replace r =>
    if t.exists_ then t.update (fun o => o .id = r .id) (replaced r) else (.error .noTable, t)
  | .setLastSeen id v =>
    if t.exists_ then t.update (fun o => o .id = .text id) (·.set .lastSeen (.text v))
    else (.error .noTable, t)
  | .markDeleted id v =>
    if t.exists_ then
      t.update (fun o => o .id = .text id && o.isLive) fun o =>
        ((o.set .deletedAt (.text v)).set .updatedAt (.text v)).set .version (o .version).succ
    else (.error .noTable, t)
  | .setColumn id c v =>
    if t.exists_ then t.update (fun o => o .id = .text id) (·.set c (c.affinity.store v))
    else (.error .noTable, t)

end Table

end NodeWatch.Store.Sql
