import NodeWatch.Json.Lookup
import NodeWatch.Json.Printer
import NodeWatch.Json.Reader
import NodeWatch.Store.Sql.File

/-!
The table in a file: its rows as JSON, one object of cells for each.
-/

namespace NodeWatch.Store.Sql

def Cell.json : Cell → Json
  | null => .null
  | integer n => .int n
  | real => .real ⟨false, 0, 0⟩
  | text s => .str s

/-- What stands for a cell; other values stand for none. -/
def Cell.ofJson? : Json → Option Cell
  | .null => some .null
  | .int n => some (.integer n)
  | .real _ => some .real
  | .str s => some (.text s)
  | _ => none

def Row.json (r : Row) : Json := .obj (Column.all.map fun c => (c.text, (r c).json))

/-- A row must have a cell for each column. -/
def Row.ofJson? (v : Json) : Option Row := do
  let cells ← Column.all.mapM fun c => (v.get? c.text).bind Cell.ofJson? |>.map (c, ·)
  return fun c => (cells.lookup c).getD .null

/-- The rows as text. -/
def Table.snapshot (t : Table) : String := (Json.arr (t.rows.map Row.json)).pretty ++ "\n"

/-- What a file with some content is. -/
def Place.ofText (s : String) : Place :=
  if s = "" then .emptyFile
  else match Json.ofString? s with
    | some (.arr rows) =>
      match rows.mapM Row.ofJson? with
      | some rows => .table { rows }
      | none => .garbage
    | _ => .garbage

end NodeWatch.Store.Sql
