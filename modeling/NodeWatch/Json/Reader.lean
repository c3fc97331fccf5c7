import NodeWatch.Json.Value
import NodeWatch.Text.Numeral

/-!
Reading JSON text. The grammar is exact: four kinds of blanks, no leading zeros, no trailing
commas, no control characters in strings, nothing after the value.
-/

namespace NodeWatch.Json

open Text

def isSpace (c : Char) : Bool := c = ' ' || c = '\n' || c = '\t' || c = '\r'

def skipSpace (s : List Char) : List Char := s.dropWhile isSpace

/-- What a string is made of: a character, or half a surrogate pair. -/
inductive Piece where
  | char (c : Char)
  | high (n : Nat)
  | low (n : Nat)

/-- A code unit of sixteen bits as a piece. -/
def Piece.ofUnit (n : Nat) : Piece :=
  if 0xD800 ≤ n ∧ n < 0xDC00 then .high (n - 0xD800)
  else if 0xDC00 ≤ n ∧ n < 0xE000 then .low (n - 0xDC00)
  else .char (Char.ofNat n)

def hex4? (a b c d : Char) : Option Nat :=
  if [a, b, c, d].all fun x => (hexValue? x).isSome then some (valueFrom 16 0 [a, b, c, d])
  else none

/-- The pieces of a string up to its closing quote, the last first, and what follows it. -/
def readPieces (done : List Piece) : List Char → Option (List Piece × List Char)
  | '"' :: r => some (done, r)
  | '\\' :: 'u' :: a :: b :: c :: d :: r =>
    match hex4? a b c d with
    | some n => readPieces (.ofUnit n :: done) r
    | none => none
  | '\\' :: c :: r =>
    match c with
    | '"' | '\\' | '/' => readPieces (.char c :: done) r
    | 'b' => readPieces (.char (Char.ofNat 8) :: done) r
    | 'f' => readPieces (.char (Char.ofNat 12) :: done) r
    | 'n' => readPieces (.char '\n' :: done) r
    | 'r' => readPieces (.char '\r' :: done) r
    | 't' => readPieces (.char '\t' :: done) r
    | _ => none
  | c :: r => if c.toNat < 32 ∨ c = '\\' then none else readPieces (.char c :: done) r
  | [] => none

/-- The text of pieces that stand last first; none if half a pair stands alone. -/
def joinPieces (text : List Char) : List Piece → Option (List Char)
  | [] => some text
  | .char c :: r => joinPieces (c :: text) r
  | .low l :: .high h :: r => joinPieces (Char.ofNat (0x10000 + h * 1024 + l) :: text) r
  | .low _ :: _ => none
  | .high _ :: _ => none

/-- The rest of a string after its opening quote: its text, if it has one, and what follows. -/
def readString (s : List Char) : Option (Option String × List Char) :=
  (readPieces [] s).map fun (ps, r) => ((joinPieces [] ps).map String.ofList, r)

/-- The greatest number of digits before the point that a floating number may have. -/
def maxMagnitude : Int := 309

/-- Digits times a power of ten, if floating numbers reach that far. -/
def ofDecimal (d : Decimal) : Json :=
  let size : Int := (digits 10 d.digits).length + d.exponent
  if d.digits = 0 ∨ size < maxMagnitude then .real d
  else if maxMagnitude < size then .unreadable
  else
    let n := if 0 ≤ d.exponent then d.digits * Nat.pow 10 d.exponent.toNat
      else d.digits / Nat.pow 10 (-d.exponent).toNat
    if n < Nat.pow 2 1024 - Nat.pow 2 970 then .real d else .unreadable

def ofInteger (negative : Bool) (n : Nat) : Json :=
  if negative then
    if n = 0 ∨ 9223372036854775808 < n then ofDecimal ⟨true, n, 0⟩ else .int (-n)
  else if n ≤ u64Max then .int n else ofDecimal ⟨false, n, 0⟩

/-- A nonempty run of digits, and what follows it. -/
def readDigits (s : List Char) : Option (List Char × List Char) :=
  match s.takeWhile isDigit with
  | [] => none
  | ds => some (ds, s.drop ds.length)

/-- The part after an `e`: a sign, if any, and digits. -/
def readExponent (s : List Char) : Option (Int × List Char) :=
  match s with
  | '-' :: r => (readDigits r).map fun (ds, r) => (-(decimalValue ds : Int), r)
  | '+' :: r => (readDigits r).map fun (ds, r) => ((decimalValue ds : Int), r)
  | _ => (readDigits s).map fun (ds, r) => ((decimalValue ds : Int), r)

def readNumber (s : List Char) : Option (Json × List Char) := do
  let (negative, s) := match s with
    | '-' :: r => (true, r)
    | _ => (false, s)
  let (whole, s) ← readDigits s
  if whole.head? = some '0' ∧ 1 < whole.length then none
  let (fraction, s) ← match s with
    | '.' :: r => (readDigits r).map fun (ds, r) => (some ds, r)
    | _ => some (none, s)
  let (power, s) ← match s with
    | 'e' :: r | 'E' :: r => (readExponent r).map fun (e, r) => (some e, r)
    | _ => some (none, s)
  match fraction, power with
  | none, none => return (ofInteger negative (decimalValue whole), s)
  | _, _ =>
    let places := fraction.getD []
    return (ofDecimal ⟨negative, decimalValue (whole ++ places), power.getD 0 - places.length⟩, s)

/-- An object of the fields read; a key that is no text makes it unreadable. -/
def ofFields (fs : List (Option String × Json)) : Json :=
  if fs.all (·.1.isSome) then .obj (fs.map fun (k, v) => (k.getD "", v)) else .unreadable

mutual

/-- One value, and what follows it. Each call spends one unit of `fuel`. -/
def readValue : (fuel : Nat) → List Char → Option (Json × List Char)
  | 0, _ => none
  | n + 1, s =>
    match skipSpace s with
    | 'n' :: 'u' :: 'l' :: 'l' :: r => some (.null, r)
    | 't' :: 'r' :: 'u' :: 'e' :: r => some (.bool true, r)
    | 'f' :: 'a' :: 'l' :: 's' :: 'e' :: r => some (.bool false, r)
    | '"' :: r => (readString r).map fun (t, r) => ((t.map Json.str).getD .unreadable, r)
    | '[' :: r =>
      match skipSpace r with
      | ']' :: r => some (.arr [], r)
      | r => (readItems n r).map fun (vs, r) => (.arr vs, r)
    | '\x7b' :: r =>
      match skipSpace r with
      | '\x7d' :: r => some (.obj [], r)
      | r => (readFields n r).map fun (fs, r) => (ofFields fs, r)
    | r => readNumber r

/-- Values up to the closing bracket. -/
def readItems : (fuel : Nat) → List Char → Option (List Json × List Char)
  | 0, _ => none
  | n + 1, s =>
    match readValue n s with
    | none => none
    | some (v, r) =>
      match skipSpace r with
      | ',' :: r => (readItems n r).map fun (vs, r) => (v :: vs, r)
      | ']' :: r => some ([v], r)
      | _ => none

/-- Keys and values up to the closing brace. -/
def readFields : (fuel : Nat) → List Char → Option (List (Option String × Json) × List Char)
  | 0, _ => none
  | n + 1, s =>
    match skipSpace s with
    | '"' :: r =>
      match readString r with
      | none => none
      | some (k, r) =>
        match skipSpace r with
        | ':' :: r =>
          match readValue n r with
          | none => none
          | some (v, r) =>
            match skipSpace r with
            | ',' :: r => (readFields n r).map fun (fs, r) => ((k, v) :: fs, r)
            | '\x7d' :: r => some ([(k, v)], r)
            | _ => none
        | _ => none
    | _ => none

end

/-- The value a whole text writes. Two calls are made at most for each character. -/
def ofText? (s : List Char) : Option Json :=
  match readValue (2 * s.length + 2) s with
  | some (v, r) => if skipSpace r = [] then some v else none
  | none => none

def ofString? (s : String) : Option Json := ofText? s.toList

end NodeWatch.Json
