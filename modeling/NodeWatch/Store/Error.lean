import NodeWatch.Net.Address.Text
import NodeWatch.Store.Record
import NodeWatch.Time.Instant.Text

/-!
How calls on a store fail.
-/

namespace NodeWatch.Store

/-- What may occur only once among live records. -/
inductive Unique where
  | ip
  | name
  | other (field : String)
  deriving DecidableEq

def Unique.text : Unique → String
  | ip => "ip"
  | name => "name"
  | other f => f

def Unique.ofText (s : String) : Unique :=
  if s = ip.text then ip else if s = name.text then name else other s

/-- Why a stored row is no record. -/
inductive Corruption where
  | address (text : String)
  | status (text : String)
  | role (text : String)
  | instant (text : String) (fault : Time.Instant.Fault)
  | other (text : String)
  deriving DecidableEq

def Corruption.message : Corruption → String
  | address t => "bad ip '" ++ t ++ "'"
  | status t => "unknown node status '" ++ t ++ "'"
  | role t => "unknown node role '" ++ t ++ "'"
  | instant t f => "bad timestamp '" ++ t ++ "': " ++ f.message
  | other t => t

/-- A fault of the database, by its result code; the code for a busy or locked database is told by
the lowest eight bits. -/
structure DatabaseFault where
  code : Int
  message : String
  deriving DecidableEq

def DatabaseFault.isBusy (f : DatabaseFault) : Bool :=
  let low := f.code % 256
  low = 5 || low = 6

inductive Error where
  | notFound (what : String)
  | conflict (id : String) (expected actual : Nat)
  | duplicate (field : Unique) (value : String)
  | database (fault : DatabaseFault)
  | inputOutput (message : String)
  | unavailable (message : String)
  | corrupt (why : Corruption)
  | versionOverflow
  deriving DecidableEq

namespace Error

def message : Error → String
  | notFound w => "node not found: " ++ w
  | conflict id e a =>
    "version conflict on node " ++ id ++ ": expected " ++ String.ofList (Text.decimal e)
      ++ ", found " ++ String.ofList (Text.decimal a)
  | duplicate f v => "a live node with " ++ f.text ++ " '" ++ v ++ "' already exists"
  | database f => "database error: " ++ f.message
  | inputOutput m => "I/O error: " ++ m
  | unavailable m => "storage unavailable: " ++ m
  | corrupt w => "corrupt record: " ++ w.message
  | versionOverflow => "attempt to add with overflow"

/-- The kind of an error in one word. -/
def kind : Error → String
  | notFound _ => "not_found"
  | conflict .. => "conflict"
  | duplicate .. => "duplicate"
  | database _ => "database"
  | inputOutput _ => "io"
  | unavailable _ => "unavailable"
  | corrupt _ => "corrupt"
  | versionOverflow => "panic"

/-- The same call may succeed later. -/
def isTransient : Error → Bool
  | unavailable _ | conflict .. | inputOutput _ => true
  | database f => f.isBusy
  | _ => false

end Error

/-- The text of a status, or the error that it is none. -/
def statusOf (s : String) : Except Error Status :=
  match Status.ofText? s with
  | some a => .ok a
  | none => .error (.corrupt (.status s))

def roleOf (s : String) : Except Error Role :=
  match Role.ofText? s with
  | some a => .ok a
  | none => .error (.corrupt (.role s))

end NodeWatch.Store
