/-!
Numerals: digits of a base, and unsigned numbers that must not exceed a bound.
-/

namespace NodeWatch.Text

/-- The value of a digit in bases up to sixteen; letters count in either case. -/
def hexValue? (c : Char) : Option Nat :=
  if '0' ≤ c ∧ c ≤ '9' then some (c.toNat - 48)
  else if 'a' ≤ c ∧ c ≤ 'f' then some (c.toNat - 87)
  else if 'A' ≤ c ∧ c ≤ 'F' then some (c.toNat - 55)
  else none

/-- The value of a digit in the given base. -/
def digitValue? (base : Nat) (c : Char) : Option Nat :=
  (hexValue? c).filter (· < base)

def isDigit (c : Char) : Bool := '0' ≤ c && c ≤ '9'

/-- The number written by digits of the base, read left to right on top of `acc`. -/
def valueFrom (base acc : Nat) : List Char → Nat
  | [] => acc
  | c :: r => valueFrom base (base * acc + (hexValue? c).getD 0) r

def decimalValue (s : List Char) : Nat := valueFrom 10 0 s

/-- A nonempty run of decimal digits as a number. -/
def decimal? (s : List Char) : Option Nat :=
  if s ≠ [] ∧ s.all isDigit then some (decimalValue s) else none

/-- An unsigned number up to `max`: decimal digits after at most one plus sign. -/
def unsigned? (max : Nat) (s : List Char) : Option Nat :=
  let ds := match s with
    | '+' :: r => r
    | _ => s
  (decimal? ds).filter (· ≤ max)

def u16Max : Nat := 65535
def u32Max : Nat := 4294967295
def u64Max : Nat := 18446744073709551615

/-- The digits of a number in bases up to sixteen, small letters, no leading zero. -/
def digits (base n : Nat) : List Char := Nat.toDigits base n

def decimal (n : Nat) : List Char := digits 10 n

/-- `decimal n` with zeros put in front up to the width. -/
def padded (width n : Nat) : List Char :=
  let ds := decimal n
  List.replicate (width - ds.length) '0' ++ ds

/-- Text filled with spaces on the right up to the width. -/
def padRight (width : Nat) (s : List Char) : List Char :=
  s ++ List.replicate (width - s.length) ' '

/-- Text filled with spaces on the left up to the width. -/
def padLeft (width : Nat) (s : List Char) : List Char :=
  List.replicate (width - s.length) ' ' ++ s

end NodeWatch.Text
