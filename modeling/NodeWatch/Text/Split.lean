/-!
Cutting a list of characters at a separator, and joining the parts again.
-/

namespace NodeWatch.Text

/-- The parts between the separators: one more than there are separators, empty ones included. -/
def split (sep : Char) : List Char → List (List Char)
  | [] => [[]]
  | c :: r =>
    if c = sep then [] :: split sep r
    else match split sep r with
      | [] => [[c]]
      | w :: ws => (c :: w) :: ws

/-- The parts with the separator between neighbours. -/
def join (sep : List Char) : List (List Char) → List Char
  | [] => []
  | [w] => w
  | w :: v :: ws => w ++ sep ++ join sep (v :: ws)

theorem split_ne_nil (sep : Char) (s : List Char) : split sep s ≠ [] := by
  cases s with
  | nil => simp [split]
  | cons c r =>
    simp only [split]
    split
    · simp
    · split <;> simp

/-- The text before the last separator and the text after it. -/
def cutLast (sep : Char) (s : List Char) : Option (List Char × List Char) :=
  match split sep s with
  | [] | [_] => none
  | w :: v :: ws =>
    let parts := w :: v :: ws
    some (join [sep] parts.dropLast, parts.getLastD [])

/-- The text before the first separator and the text after it. -/
def cutFirst (sep : Char) (s : List Char) : Option (List Char × List Char) :=
  match s.dropWhile (· != sep) with
  | [] => none
  | _ :: r => some (s.takeWhile (· != sep), r)

/-- What follows `p`, if the text begins with it. -/
def afterStart (p s : List Char) : Option (List Char) :=
  if p.isPrefixOf s then some (s.drop p.length) else none

/-- What precedes `p`, if the text ends with it. -/
def beforeEnd (p s : List Char) : Option (List Char) :=
  if p.isSuffixOf s then some (s.take (s.length - p.length)) else none

/-- Strings joined with a separator. -/
def joinWith (sep : String) (ws : List String) : String := sep.intercalate ws

end NodeWatch.Text
