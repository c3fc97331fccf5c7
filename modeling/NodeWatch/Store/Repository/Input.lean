import NodeWatch.Store.Record.Input
import NodeWatch.Store.Repository

/-!
Stores as people describe them, and what other programs do to them in the words for it.
-/

namespace NodeWatch.Store.Repository

/-- One more record, which is deleted again if the description says so. -/
def addInput (now : Time.Instant) (r : Repository) (v : Json) : Repository :=
  match NewRecord.ofInput v now with
  | .error _ => r
  | .ok n =>
    match r.step now (.create n) with
    | ((.ok (made : Record) : Except Error Record), r) =>
      if v.boolAt "delete" then (r.step now (.delete made.id)).2 else r
    | (_, r) => r

/-- The records in a list, made one after the other. -/
def ofInput (now : Time.Instant) (vs : List Json) : Repository :=
  vs.foldl (addInput now) (.inTable true)

def Sabotage.text : Sabotage → String
  | dropTable => "drop_table"
  | blockInserts => "block_insert"
  | blockUpdates => "block_update"

def Sabotage.ofText? (s : String) : Option Sabotage :=
  [dropTable, blockInserts, blockUpdates].find? (·.text = s)

end NodeWatch.Store.Repository

namespace NodeWatch.Store.Sql

/-- A text or an integer; anything else is nothing. -/
def Cell.ofJson : Json → Cell
  | .str s => .text s
  | .int n => .integer n
  | _ => .null

end NodeWatch.Store.Sql
