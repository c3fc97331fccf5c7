import NodeWatch.Json.Value
import NodeWatch.Text.Numeral

/-!
Writing JSON, on one line or with an indentation of two spaces.
-/

namespace NodeWatch.Json

open Text

/-- Quotes, backslashes and control characters are escaped, nothing else. -/
def escape (c : Char) : List Char :=
  if c = '"' then ['\\', '"']
  else if c = '\\' then ['\\', '\\']
  else if c = '\n' then ['\\', 'n']
  else if c = '\r' then ['\\', 'r']
  else if c = '\t' then ['\\', 't']
  else if c.toNat = 8 then ['\\', 'b']
  else if c.toNat = 12 then ['\\', 'f']
  else if c.toNat < 32 then
    let ds := digits 16 c.toNat
    "\\u".toList ++ List.replicate (4 - ds.length) '0' ++ ds
  else [c]

def quoted (s : String) : List Char := '"' :: s.toList.flatMap escape ++ ['"']

def intText (n : Int) : List Char :=
  if n < 0 then '-' :: decimal n.natAbs else decimal n.natAbs

def decimalText (d : Decimal) : List Char :=
  (if d.negative then ['-'] else []) ++ decimal d.digits ++ 'e' :: intText d.exponent

/-- How a value is laid out: what stands before each item, before a closing bracket, and between a
key and its value. -/
structure Layout where
  item : Nat → List Char
  close : Nat → List Char
  colon : List Char

def Layout.compact : Layout := ⟨fun _ => [], fun _ => [], [':']⟩

def Layout.indented : Layout :=
  let line (n : Nat) := '\n' :: List.replicate (2 * n) ' '
  ⟨fun n => line (n + 1), line, [':', ' ']⟩

mutual

/-- A value that stands `depth` brackets deep. -/
def render (l : Layout) (depth : Nat) : Json → List Char
  | .null | .unreadable => "null".toList
  | .bool b => (if b then "true" else "false").toList
  | .int n => intText n
  | .real d => decimalText d
  | .str s => quoted s
  | .arr [] => ['[', ']']
  | .arr vs => '[' :: renderItems l depth true vs ++ l.close depth ++ [']']
  | .obj [] => ['\x7b', '\x7d']
  | .obj fs => '\x7b' :: renderFields l depth true fs ++ l.close depth ++ ['\x7d']

def renderItems (l : Layout) (depth : Nat) (first : Bool) : List Json → List Char
  | [] => []
  | v :: vs =>
    (if first then [] else [',']) ++ l.item depth ++ render l (depth + 1) v
      ++ renderItems l depth false vs

def renderFields (l : Layout) (depth : Nat) (first : Bool) : List (String × Json) → List Char
  | [] => []
  | (k, v) :: fs =>
    (if first then [] else [',']) ++ l.item depth ++ quoted k ++ l.colon ++ render l (depth + 1) v
      ++ renderFields l depth false fs

end

def line (v : Json) : String := String.ofList (render .compact 0 v)

def pretty (v : Json) : String := String.ofList (render .indented 0 v)

end NodeWatch.Json
