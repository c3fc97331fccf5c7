import NodeWatch.Json.Decode
import NodeWatch.Text.Numeral

/-!
Taking single values out of JSON objects where nothing has to be there: what is absent or of another
kind counts as empty.
-/

namespace NodeWatch.Json

/-- The value under a key; only objects have any. -/
def get? (v : Json) (k : String) : Option Json :=
  match v with
  | .obj fs => field? k fs
  | _ => none

/-- The value under a key, `null` if there is none. -/
def get (v : Json) (k : String) : Json := (v.get? k).getD .null

def textAt? (v : Json) (k : String) : Option String := (v.get? k).bind asText?
def textAt (v : Json) (k : String) : String := (v.textAt? k).getD ""
def natAt? (v : Json) (k : String) : Option Nat := (v.get? k).bind (asNat? Text.u64Max)
def natAt (v : Json) (k : String) : Nat := (v.natAt? k).getD 0
def boolAt (v : Json) (k : String) : Bool := ((v.get? k).bind asBool?).getD false

def items : Json → List Json
  | .arr vs => vs
  | _ => []

def listAt (v : Json) (k : String) : List Json := (v.get k).items

/-- The texts in a list. -/
def textsAt (v : Json) (k : String) : List String := (v.listAt k).filterMap asText?

/-- The pairs of texts in a list. -/
def pairsAt (v : Json) (k : String) : List (String × String) :=
  (v.listAt k).filterMap fun
    | .arr [.str a, .str b] => some (a, b)
    | _ => none

/-- The object with values for the fields that are absent. -/
def filled? (defaults : List (String × Json)) : Json → Option Json
  | .obj fs => some (.obj (fs ++ defaults.filter fun f => (field? f.1 fs).isNone))
  | _ => none

/-- The object with the values of some fields replaced wherever they stand. -/
def mapField (f : String → Json → Json) : Json → Json
  | .obj fs => .obj (fs.map fun (k, v) => (k, f k v))
  | v => v

end NodeWatch.Json
