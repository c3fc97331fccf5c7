import NodeWatch.Store.Sql.Table

/-!
Opening the file that holds the table.
-/

namespace NodeWatch.Store.Sql

/-- What is found where the file should be. Missing directories are made. -/
inductive Place where
  | nothing
  | emptyFile
  | table (t : Table)
  | directory
  | belowFile
  | garbage

/-- The table of an opened file, made if it is missing. -/
def Place.open : Place → Except Error Table
  | nothing | emptyFile => .ok {}
  | table t => .ok { t with exists_ := true }
  | directory => .error (.database ⟨14, "unable to open database file"⟩)
  | belowFile => .error (.inputOutput "Not a directory")
  | garbage => .error (.database ⟨26, "file is not a database"⟩)

end NodeWatch.Store.Sql
