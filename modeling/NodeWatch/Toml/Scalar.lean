import NodeWatch.Json.Reader
import NodeWatch.Text.Split
import NodeWatch.Time.Calendar

/-!
The values of a TOML document that are no text and hold no others: numbers, truth values, dates and
times. Each is one run of letters, digits and a few marks; only a date and a time may have a blank
between them.
-/

namespace NodeWatch.Toml

open Text

/-- The characters of a bare key. -/
def isBare (c : Char) : Bool := c.isAlphanum || c = '_' || c = '-'

/-- The characters of a scalar. -/
def isScalarChar (c : Char) : Bool := isBare c || c = '+' || c = '.' || c = ':'

/-- Digits with single underscores between some of them; the underscores are dropped. -/
def spacedDigits? (isDigit : Char → Bool) (s : List Char) : Option (List Char) :=
  let parts := split '_' s
  if parts.all fun p => p ≠ [] ∧ p.all isDigit then some parts.flatten else none

/-- A sign, if there is one, and what follows. -/
def cutSign : List Char → Bool × List Char
  | '-' :: r => (true, r)
  | '+' :: r => (false, r)
  | s => (false, s)

/-- Decimal digits, the first of several not zero. -/
def wholeDigits? (s : List Char) : Option (List Char) :=
  (spacedDigits? isDigit s).filter fun ds => ds.length = 1 || ds.head? ≠ some '0'

/-- The integer is one of 64 bits with sign. -/
def fits (n : Int) : Bool := -9223372036854775808 ≤ n && n < 9223372036854775808

def inBase? (base : Nat) (s : List Char) : Option Int :=
  ((spacedDigits? (fun c => (digitValue? base c).isSome) s).map
    fun ds => (valueFrom base 0 ds : Int)).filter fits

def integer? (s : List Char) : Option Int :=
  match s with
  | '0' :: 'x' :: r => inBase? 16 r
  | '0' :: 'o' :: r => inBase? 8 r
  | '0' :: 'b' :: r => inBase? 2 r
  | _ =>
    let (negative, ds) := cutSign s
    ((wholeDigits? ds).map fun ds =>
      let n : Int := decimalValue ds
      if negative then -n else n).filter fits

/-- Digits after a point. None is no fraction. -/
def fraction? (s : List Char) : Option (List Char) := spacedDigits? isDigit s

def exponent? (s : List Char) : Option Int :=
  let (back, ds) := cutSign s
  (spacedDigits? isDigit ds).map fun ds =>
    let n : Int := decimalValue ds
    if back then -n else n

def isExponentMark (c : Char) : Bool := c = 'e' || c = 'E'

/-- A floating number with a fraction or an exponent. It may be below all finite numbers, but not
above them. -/
def float? (s : List Char) : Option Json := do
  let (negative, s) := cutSign s
  let mantissa := s.takeWhile fun c => !isExponentMark c
  let power ← match s.drop mantissa.length with
    | [] => some none
    | _ :: r => (exponent? r).map some
  let whole := mantissa.takeWhile (· ≠ '.')
  let places ← match mantissa.drop whole.length with
    | [] => some none
    | _ :: r => (fraction? r).map some
  if power.isNone ∧ places.isNone then none
  let whole ← wholeDigits? whole
  let places := places.getD []
  let v := Json.ofDecimal
    ⟨negative, decimalValue (whole ++ places), power.getD 0 - places.length⟩
  match v with
  | .unreadable => if negative then some v else none
  | v => some v

/-- The infinite numbers and the one that is none, with or without a sign. -/
def special? (s : List Char) : Option Json :=
  let (_, s) := cutSign s
  if s = "inf".toList ∨ s = "nan".toList then some .unreadable else none

/-- Two digits as a number. -/
def two? (a b : Char) : Option Nat := decimal? [a, b]

/-- The hours and minutes of an offset, or the letter of universal time. -/
def isOffset : List Char → Bool
  | ['Z'] | ['z'] => true
  | [sign, a, b, ':', c, d] =>
    (sign = '+' || sign = '-') && (two? a b).any (· ≤ 23) && (two? c d).any (· ≤ 59)
  | _ => false

/-- A time of day, with an offset if that is allowed. -/
def isTime (offset : Bool) : List Char → Bool
  | a :: b :: ':' :: c :: d :: ':' :: e :: f :: r =>
    let (isFraction, r) : Bool × List Char := match r with
      | '.' :: r => (r.head?.any isDigit, r.dropWhile isDigit)
      | r => (true, r)
    (two? a b).any (· ≤ 23) && (two? c d).any (· ≤ 59) && (two? e f).any (· ≤ 60)
      && isFraction && (r = [] || (offset && isOffset r))
  | _ => false

/-- A date and what follows it. -/
def readDate : List Char → Option (List Char)
  | a :: b :: c :: d :: '-' :: e :: f :: '-' :: g :: h :: r => do
    let date : Time.Date := ⟨← decimal? [a, b, c, d], ← two? e f, ← two? g h⟩
    if date.isValid then some r else none
  | _ => none

/-- A date or time; as a value it is a table with no key that anybody asks for. -/
def dateTime : Json := .obj [("", .unreadable)]

/-- A date, a time or both in one run of characters. -/
def dateTime? (s : List Char) : Option Json :=
  let ok := match readDate s with
    | some [] => true
    | some (t :: r) => (t = 'T' || t = 't') && isTime true r
    | none => isTime false s
  if ok then some dateTime else none

/-- The value of one run of characters. -/
def scalar? (s : List Char) : Option Json :=
  if s = "true".toList then some (.bool true)
  else if s = "false".toList then some (.bool false)
  else dateTime? s <|> (integer? s).map Json.int <|> float? s <|> special? s

/-- A scalar at the start of a text, and what follows it. -/
def readScalar (s : List Char) : Option (Json × List Char) :=
  let run := s.takeWhile isScalarChar
  let rest := s.drop run.length
  match readDate run, rest with
  | some [], ' ' :: c :: r =>
    if isDigit c then
      let time := (c :: r).takeWhile isScalarChar
      if isTime true time then some (dateTime, (c :: r).drop time.length) else none
    else some (dateTime, rest)
  | _, _ => (scalar? run).map (·, rest)

end NodeWatch.Toml
