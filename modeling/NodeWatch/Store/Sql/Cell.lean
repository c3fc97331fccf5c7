import NodeWatch.Text.Blank
import NodeWatch.Text.Numeral

/-!
Cells of a table, and what becomes of a value that is put into a column.

A column for text turns integers into their digits. A column for integers takes texts that write
integers as such, also with blanks around them or as `12.0` and `1.2e1`; other numerals become
floating numbers, and all other texts stay.
-/

namespace NodeWatch.Store.Sql

open Text

inductive Cell where
  | null
  | integer (n : Int)
  | real
  | text (s : String)
  deriving DecidableEq

inductive Affinity where
  | text
  | integer
  deriving DecidableEq

/-- Integers are those of 64 bits with sign. -/
def fits (n : Int) : Bool := -9223372036854775808 ≤ n && n < 9223372036854775808

/-- A number of 64 bits without sign as one with sign. -/
def signed (n : Nat) : Int := Int.bmod n 18446744073709551616

/-- The blanks that may surround a numeral. -/
def isNumeralSpace (c : Char) : Bool :=
  c = ' ' || (9 ≤ c.toNat && c.toNat ≤ 13)

/-- A numeral: digits times a power of ten. -/
structure Numeral where
  digits : Int
  power : Int
  whole : Bool

/-- The longest numeral at the start of a text, and what follows it. -/
def readNumeral (s : List Char) : Option (Numeral × List Char) :=
  let (negative, s) := match s with
    | '-' :: r => (true, r)
    | '+' :: r => (false, r)
    | _ => (false, s)
  let ds := s.takeWhile isDigit
  let r := s.drop ds.length
  let (places, r, point) := match r with
    | '.' :: r' =>
      let ps := r'.takeWhile isDigit
      if ds = [] ∧ ps = [] then ([], r, false) else (ps, r'.drop ps.length, true)
    | _ => ([], r, false)
  if ds = [] ∧ places = [] then none
  else
    let (power, r, raised) := match r with
      | 'e' :: t | 'E' :: t =>
        let (back, u) := match t with
          | '-' :: u => (true, u)
          | '+' :: u => (false, u)
          | _ => (false, t)
        let es := u.takeWhile isDigit
        if es = [] then ((0 : Int), r, false)
        else
          let e : Int := decimalValue es
          (if back then -e else e, u.drop es.length, true)
      | _ => ((0 : Int), r, false)
    let n : Int := decimalValue (ds ++ places)
    some (⟨if negative then -n else n, power - places.length, !point && !raised⟩, r)

/-- The integer that a numeral is exactly, if it is one. -/
def Numeral.integer? (n : Numeral) : Option Int :=
  if n.digits = 0 then some 0
  else if 0 ≤ n.power then
    if n.power ≤ 19 then some (n.digits * Nat.pow 10 n.power.toNat) else none
  else if -n.power ≤ 400 then
    let d : Int := Nat.pow 10 (-n.power).toNat
    if n.digits % d = 0 then some (n.digits / d) else none
  else none

/-- Floating numerals that are integers below this are kept as integers. -/
def maxExact : Int := 2251799813685248

def Numeral.cell (n : Numeral) : Cell :=
  match n.integer? with
  | none => .real
  | some i =>
    if n.whole then (if fits i then .integer i else .real)
    else if -maxExact < i ∧ i < maxExact then .integer i
    else .real

def intText (n : Int) : String :=
  String.ofList (if n < 0 then '-' :: decimal n.natAbs else decimal n.natAbs)

/-- The cell that a column makes of a value. -/
def Affinity.store (a : Affinity) (c : Cell) : Cell :=
  match a, c with
  | .text, .integer n => .text (intText n)
  | .integer, .text s =>
    match readNumeral (s.toList.dropWhile isNumeralSpace) with
    | some (n, r) => if r.all isNumeralSpace then n.cell else c
    | none => c
  | _, _ => c

/-- The value of a cell plus one; a text counts as the numeral it begins with. -/
def Cell.succ (c : Cell) : Cell :=
  match c with
  | .null => .null
  | .real => .real
  | .integer n => if fits (n + 1) then .integer (n + 1) else .real
  | .text s =>
    match readNumeral (s.toList.dropWhile isNumeralSpace) with
    | none => .integer 1
    | some (n, _) =>
      match n.cell with
      | .integer i => if fits (i + 1) then .integer (i + 1) else .real
      | _ => .real

end NodeWatch.Store.Sql
