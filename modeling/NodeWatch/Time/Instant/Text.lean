import NodeWatch.Time.Instant
import NodeWatch.Text.Blank
import NodeWatch.Text.Bytes
import NodeWatch.Text.Lower
import NodeWatch.Text.Numeral

/-!
Instants as text: a date, a `T`, a time of day and an offset from universal time.

There are two readers. The strict one wants every field at its full width and is the one by which
stored texts are read back; the lenient one also takes signed years, short fields and blanks. The
writer uses the fewest of 0, 3, 6 and 9 digits that give the fraction exactly.
-/

namespace NodeWatch.Time.Instant

open Text

/-- Why a text is no instant. -/
inductive Fault where
  | invalid
  | tooShort
  | tooLong
  | outOfRange
  deriving DecidableEq

def Fault.message : Fault → String
  | invalid => "input contains invalid characters"
  | tooShort => "premature end of input"
  | tooLong => "trailing input"
  | outOfRange => "input is out of range"

/-! ### Writing -/

def yearText (y : Int) : List Char :=
  if 0 ≤ y ∧ y ≤ 9999 then padded 4 y.toNat
  else if y < 0 then '-' :: padded 4 y.natAbs
  else '+' :: padded 4 y.natAbs

/-- The digits of a fraction of a second, with the point before them. -/
def fractionText (nanos : Nat) : List Char :=
  if nanos = 0 then []
  else if nanos % 1000000 = 0 then '.' :: padded 3 (nanos / 1000000)
  else if nanos % 1000 = 0 then '.' :: padded 6 (nanos / 1000)
  else '.' :: padded 9 nanos

/-- Date and time of day; a leap second is the sixtieth. -/
def localText (t : Instant) (between : Char) : List Char :=
  let d := t.date
  let s := t.secondOfDay
  let leap := if t.nanos < 1000000000 then 0 else 1
  yearText d.year ++ '-' :: padded 2 d.month ++ '-' :: padded 2 d.day ++ between ::
    padded 2 (s / 3600) ++ ':' :: padded 2 (s / 60 % 60) ++ ':' :: padded 2 (s % 60 + leap)

def textWith (zone : List Char) (t : Instant) : List Char :=
  t.localText 'T' ++ fractionText (t.nanos % 1000000000) ++ zone

/-- With `Z` for universal time. -/
def text (t : Instant) : List Char := textWith ['Z'] t

/-- With `+00:00` for universal time. -/
def offsetText (t : Instant) : List Char := textWith "+00:00".toList t

def toString (t : Instant) : String := String.ofList t.text

/-- Date and time to the second, as people write them. -/
def plainText (t : Instant) : List Char := t.localText ' '

/-! ### Reading -/

/-- Date, time of day and offset make an instant. -/
def ofFields (date : Date) (h m s nanos : Nat) (offset : Int) : Except Fault Instant :=
  if ¬ date.isValid ∨ 23 < h ∨ 59 < m ∨ 60 < s then .error .outOfRange
  else
    let (s, extra) := if s = 60 then (59, 1000000000) else (s, 0)
    let clock : Int := h * 3600 + m * 60 + s
    match of? (date.toDays * 86400 + clock - offset) (nanos + extra) with
    | some t =>
      if minYear ≤ date.year ∧ date.year ≤ maxYear ∧ t.inRange then .ok t
      else .error .outOfRange
    | none => .error .outOfRange

/-- From one to nine digits of a fraction; the digits after them are skipped. -/
def readFraction (s : List Char) : Except Fault (Nat × List Char) :=
  let ds := s.takeWhile isDigit
  if s = [] then .error .tooShort
  else if ds = [] then .error .invalid
  else
    let used := ds.take 9
    .ok (decimalValue used * Nat.pow 10 (9 - used.length), s.drop ds.length)

/-- A colon alone. -/
def colon : List Char → Except Fault (List Char)
  | [] => .error .tooShort
  | ':' :: r => .ok r
  | _ => .error .invalid

/-- Any run of colons and blanks, also none. -/
def colonOrBlank (s : List Char) : Except Fault (List Char) :=
  .ok (s.dropWhile fun c => c = ':' || isBlank c)

def minusSign : Char := Char.ofNat 0x2212

/-- Seconds east of universal time. -/
def readOffset (sep : List Char → Except Fault (List Char)) :
    List Char → Except Fault (Int × List Char)
  | [] => .error .tooShort
  | 'Z' :: r | 'z' :: r => .ok (0, r)
  | sign :: r => do
    if sign ≠ '+' ∧ sign ≠ '-' ∧ sign ≠ minusSign then throw .invalid
    match r with
    | a :: b :: r =>
      if !isDigit a || !isDigit b then throw .invalid
      match ← sep r with
      | c :: d :: r =>
        if !isDigit c || !isDigit d then throw .invalid
        if '5' < c then throw .outOfRange
        let n : Int := decimalValue [a, b] * 3600 + decimalValue [c, d] * 60
        if 86400 ≤ n then throw .outOfRange
        return (if sign = '+' then n else -n, r)
      | _ => throw .tooShort
    | _ => throw .tooShort

/-- The characters of the strict form: digits and separators at fixed places, then a fraction and
an offset. -/
def read (s : List Char) : Except Fault Instant :=
  match s with
  | y1 :: y2 :: y3 :: y4 :: s1 :: m1 :: m2 :: s2 :: d1 :: d2 :: t :: h1 :: h2 :: s3 :: n1 :: n2
      :: s4 :: c1 :: c2 :: r => do
    let digitsAt (ds : List Char) : Except Fault Nat :=
      if ds.all isDigit then .ok (decimalValue ds) else .error .invalid
    let mark (ok : Bool) : Except Fault Unit := if ok then .ok () else .error .invalid
    let year ← digitsAt [y1, y2, y3, y4]
    mark (s1 = '-')
    let month ← digitsAt [m1, m2]
    mark (s2 = '-')
    let day ← digitsAt [d1, d2]
    let date : Date := ⟨year, month, day⟩
    if !date.isValid then throw .outOfRange
    mark (t = 'T' || t = 't' || t = ' ')
    let h ← digitsAt [h1, h2]
    mark (s3 = ':')
    let m ← digitsAt [n1, n2]
    mark (s4 = ':')
    let sec ← digitsAt [c1, c2]
    let (nanos, r) ← match r with
      | '.' :: r => readFraction r
      | _ => .ok (0, r)
    if 23 < h ∨ 59 < m ∨ 60 < sec then throw .outOfRange
    let (offset, r) ← readOffset colon r
    if r ≠ [] then throw .tooLong
    ofFields date h m sec nanos offset
  | _ => .error (if utf8Length s < 19 then .tooShort else .invalid)

/-- At most `width` digits after blanks. -/
def readShort (width : Nat) (s : List Char) : Option (Nat × List Char) :=
  let s := s.dropWhile isBlank
  let ds := (s.takeWhile isDigit).take width
  if ds = [] then none else some (decimalValue ds, s.drop ds.length)

/-- A separator that blanks may surround. -/
def readMark (c : Char) (s : List Char) : Option (List Char) :=
  match s.dropWhile isBlank with
  | d :: r => if d = c then some r else none
  | [] => none

/-- Four digits without a sign, any number of them behind one. -/
def readYear (s : List Char) : Option (Int × List Char) :=
  match s.dropWhile isBlank with
  | '-' :: r => (readAll r).map fun (n, r) => (-n, r)
  | '+' :: r => readAll r
  | s => (readShort 4 s).map fun (n, r) => ((n : Int), r)
where
  readAll (s : List Char) : Option (Int × List Char) :=
    let ds := s.takeWhile isDigit
    if ds = [] then none else some ((decimalValue ds : Int), s.drop ds.length)

/-- The name of universal time in any case, or an offset with or without a colon. -/
def readZone (s : List Char) : Option (Int × List Char) :=
  if lowerAscii (s.take 3) = ['u', 't', 'c'] then some (0, s.drop 3)
  else (readOffset colonOrBlank s).toOption

/-- The lenient form. -/
def ofText? (s : List Char) : Option Instant := do
  let (year, s) ← readYear s
  let s ← readMark '-' s
  let (month, s) ← readShort 2 s
  let s ← readMark '-' s
  let (day, s) ← readShort 2 s
  let s ← match s with
    | c :: r => if c = 'T' ∨ c = 't' ∨ c = ' ' then some r else none
    | [] => none
  let (h, s) ← readShort 2 s
  let s ← readMark ':' s
  let (m, s) ← readShort 2 s
  let s ← readMark ':' s
  let (sec, s) ← readShort 2 s
  let (nanos, s) ← match s with
    | '.' :: r => (readFraction r).toOption
    | _ => some (0, s)
  let (offset, s) ← readZone (s.dropWhile isBlank)
  if s.all isBlank then (ofFields ⟨year, month, day⟩ h m sec nanos offset).toOption else none

def ofString? (s : String) : Option Instant := ofText? s.toList

end NodeWatch.Time.Instant
