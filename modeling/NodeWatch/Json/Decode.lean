import NodeWatch.Json.Value

/-!
Taking typed values out of JSON. Nothing is converted: a number is no text, a fraction no integer.
-/

namespace NodeWatch.Json

def asText? : Json → Option String
  | .str s => some s
  | _ => none

def asBool? : Json → Option Bool
  | .bool b => some b
  | _ => none

/-- An integer from zero to the bound. -/
def asNat? (max : Nat) : Json → Option Nat
  | .int n => if 0 ≤ n ∧ n ≤ max then some n.toNat else none
  | _ => none

def asList? {α : Type} (item : Json → Option α) : Json → Option (List α)
  | .arr vs => vs.mapM item
  | _ => none

/-- `null` is the absence of a value. -/
def asOption? {α : Type} (item : Json → Option α) : Json → Option (Option α)
  | .null => some none
  | v => (item v).map some

/-- What formats do differently: which values stand for nothing, and whether a record given as an
array may have items beyond its fields. -/
structure Dialect where
  isUnit : Json → Bool
  longRecords : Bool

/-- JSON itself: `null` alone is nothing. -/
def Dialect.plain : Dialect where
  isUnit
    | .null => true
    | _ => false
  longRecords := false

/-- The name of a case without data: as a string, or as the one key of an object over nothing. -/
def asCase? (v : Json) (d : Dialect := .plain) : Option String :=
  match v with
  | .str s => some s
  | .obj [(k, u)] => if d.isUnit u then some k else none
  | _ => none

/-- The value under the last field of the name. -/
def field? (name : String) (fs : List (String × Json)) : Option Json :=
  (fs.reverse.find? (·.1 = name)).map (·.2)

/-- The fields of a record with the given names. An object may have further fields, and may not
repeat one of these; an array gives them in order and may stop early. -/
def record? (names : List String) (v : Json) (d : Dialect := .plain) :
    Option (List (String × Json)) :=
  match v with
  | .obj fs =>
    let known := fs.filter (names.contains ·.1)
    if (known.map (·.1)).Nodup then some known else none
  | .arr vs => if d.longRecords || vs.length ≤ names.length then some (names.zip vs) else none
  | _ => none

/-- A field that must be there. -/
def required? {α : Type} (fs : List (String × Json)) (name : String) (item : Json → Option α) :
    Option α :=
  (field? name fs).bind item

/-- A field that has a value of its own when it is absent. -/
def withDefault? {α : Type} (fs : List (String × Json)) (name : String) (absent : α)
    (item : Json → Option α) : Option α :=
  match field? name fs with
  | none => some absent
  | some v => item v

end NodeWatch.Json
