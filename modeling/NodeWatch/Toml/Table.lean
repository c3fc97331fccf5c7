import NodeWatch.Json.Value

/-!
The tables of a TOML document while it is read. A table can be opened once by a header and filled by
dotted keys only where those made it, so each remembers how it came about.
-/

namespace NodeWatch.Toml

/-- By a header of its own, as part of the name of another table, or by a dotted key. -/
inductive Origin where
  | header
  | implied
  | dotted
  deriving DecidableEq

/-- What stands under a key. A value is closed; of a list of tables the last is open. -/
inductive Node where
  | value (v : Json)
  | table (how : Origin) (entries : List (String × Node))
  | tables (items : List (List (String × Node)))

abbrev Entries : Type := List (String × Node)

mutual

def Node.json : Node → Json
  | .value v => v
  | .table _ es => .obj (entriesJson es)
  | .tables items => .arr (itemsJson items)

def entriesJson : List (String × Node) → List (String × Json)
  | [] => []
  | (k, n) :: es => (k, n.json) :: entriesJson es

def itemsJson : List (List (String × Node)) → List Json
  | [] => []
  | es :: items => .obj (entriesJson es) :: itemsJson items

end

/-- The entries with one under the key replaced. -/
def replace (k : String) (n : Node) (es : Entries) : Entries :=
  es.map fun e => if e.1 = k then (k, n) else e

/-- Changes the table at the end of a path, making the tables on the way that are missing. A dotted
path does not lead into a table that a header opened. -/
def descend (dotted : Bool) (f : Origin → Entries → Option Entries) :
    List String → Origin → Entries → Option Entries
  | [], o, es => f o es
  | k :: ks, _, es =>
    match es.lookup k with
    | none =>
      let o : Origin := if dotted then .dotted else .implied
      (descend dotted f ks o []).map fun child => es ++ [(k, .table o child)]
    | some (.value _) => none
    | some (.table o child) =>
      if dotted ∧ o = .header then none
      else (descend dotted f ks o child).map fun child => replace k (.table o child) es
    | some (.tables items) =>
      (descend dotted f ks .header (items.getLastD [])).map fun last =>
        replace k (.tables (items.dropLast ++ [last])) es

/-- Puts a value under a key that may be dotted, into an open table. -/
def insert (keys : List String) (v : Json) (es : Entries) : Option Entries :=
  let path := keys.dropLast
  let key := keys.getLastD ""
  descend true (fun o es =>
    if (o = .dotted) = (path = []) then none
    else if (es.lookup key).isSome then none
    else some (es ++ [(key, .value v)])) path .header es

/-- Opens the table of a header. -/
def openTable (keys : List String) (root : Entries) : Option Entries :=
  let key := keys.getLastD ""
  descend false (fun _ es =>
    match es.lookup key with
    | none => some (es ++ [(key, .table .header [])])
    | some (.table .implied child) => some (replace key (.table .header child) es)
    | _ => none) keys.dropLast .header root

/-- Adds a table to the list of a header. -/
def openItem (keys : List String) (root : Entries) : Option Entries :=
  let key := keys.getLastD ""
  descend false (fun _ es =>
    match es.lookup key with
    | none => some (es ++ [(key, .tables [[]])])
    | some (.tables items) => some (replace key (.tables (items ++ [[]])) es)
    | _ => none) keys.dropLast .header root

/-- Puts a value into the table that was opened last, which `at_` leads to. -/
def insertAt (at_ keys : List String) (v : Json) (root : Entries) : Option Entries :=
  descend false (fun _ es => insert keys v es) at_ .header root

end NodeWatch.Toml
