import NodeWatch.Net.Address
import NodeWatch.Text.Numeral
import NodeWatch.Text.Split

/-!
Written addresses. Octets are decimal, without leading zeros, between dots; groups are hexadecimal
between colons, where one run of zero groups may be left out and the last two groups may be octets.

The printed form leaves out the longest run of two or more zero groups, the first of equals, and
writes octets only behind `::ffff:`.
-/

namespace NodeWatch.Net.Address

open Text

/-- A run of one to `width` digits as a number, with what follows it. -/
def readNumber (base width : Nat) (s : List Char) : Option (Nat × List Char) :=
  let ds := s.takeWhile fun c => (digitValue? base c).isSome
  if ds = [] ∨ width < ds.length then none
  else some (valueFrom base 0 ds, s.drop ds.length)

def readChar (c : Char) : List Char → Option (List Char)
  | [] => none
  | d :: r => if d = c then some r else none

/-- At most three digits, no zero before another digit, at most 255. -/
def readOctet (s : List Char) : Option (UInt8 × List Char) :=
  match readNumber 10 3 s with
  | none => none
  | some (n, r) =>
    if 255 < n ∨ (s.head? = some '0' ∧ r.length + 1 < s.length) then none
    else some (UInt8.ofNat n, r)

def readV4 (s : List Char) : Option ((UInt8 × UInt8 × UInt8 × UInt8) × List Char) := do
  let (a, s) ← readOctet s
  let s ← readChar '.' s
  let (b, s) ← readOctet s
  let s ← readChar '.' s
  let (c, s) ← readOctet s
  let s ← readChar '.' s
  let (d, s) ← readOctet s
  return ((a, b, c, d), s)

/-- Two octets make one group. -/
def group (hi lo : UInt8) : UInt16 := UInt16.ofNat (hi.toNat * 256 + lo.toNat)

/-- Up to `n` groups, a colon before each but the first. Octets may stand in the place of two
groups and end the list; the flag tells whether they did. -/
def readGroups : Nat → Bool → List Char → List UInt16 × Bool × List Char
  | 0, _, s => ([], false, s)
  | n + 1, first, s =>
    match (if first then some s else readChar ':' s) with
    | none => ([], false, s)
    | some t =>
      match (if n = 0 then none else readV4 t) with
      | some ((a, b, c, d), r) => ([group a b, group c d], true, r)
      | none =>
        match readNumber 16 4 t with
        | none => ([], false, s)
        | some (g, r) =>
          let (gs, octets, r) := readGroups n false r
          (UInt16.ofNat g :: gs, octets, r)

def readV6 (s : List Char) : Option (Address × List Char) :=
  match readGroups 8 true s with
  | (front, octets, r) =>
    if front.length = 8 then (ofGroups? front).map (·, r)
    else if octets then none
    else do
      let r ← readChar ':' r
      let r ← readChar ':' r
      let (back, _, r) := readGroups (7 - front.length) true r
      let gap := List.replicate (8 - front.length - back.length) 0
      (ofGroups? (front ++ gap ++ back)).map (·, r)

/-- Octets written alone and to the end. -/
def ofV4Text? (s : List Char) : Option Address :=
  match readV4 s with
  | some ((a, b, c, d), []) => some (.v4 a b c d)
  | _ => none

def ofV6Text? (s : List Char) : Option Address :=
  match readV6 s with
  | some (a, []) => some a
  | _ => none

def ofText? (s : List Char) : Option Address := ofV4Text? s <|> ofV6Text? s

def v4Text (a b c d : UInt8) : List Char :=
  join ['.'] ([a, b, c, d].map fun o => decimal o.toNat)

def groupsText (gs : List UInt16) : List Char :=
  join [':'] (gs.map fun g => digits 16 g.toNat)

/-- Where the longest run of zeros starts, and its length; the first of equals. -/
def longestZeros : List UInt16 → Nat × Nat
  | [] => (0, 0)
  | g :: r =>
    let here := ((g :: r).takeWhile (· == 0)).length
    let (i, n) := longestZeros r
    if n ≤ here then (0, here) else (i + 1, n)

def v6Text (gs : List UInt16) : List Char :=
  match gs with
  | [0, 0, 0, 0, 0, 0xffff, g, h] =>
    let o (n : Nat) := UInt8.ofNat n
    "::ffff:".toList ++
      v4Text (o (g.toNat / 256)) (o g.toNat) (o (h.toNat / 256)) (o h.toNat)
  | _ =>
    let (i, n) := longestZeros gs
    if 1 < n then groupsText (gs.take i) ++ [':', ':'] ++ groupsText (gs.drop (i + n))
    else groupsText gs

def text : Address → List Char
  | v4 a b c d => v4Text a b c d
  | v6 gs => v6Text gs.toList

def ofString? (s : String) : Option Address := ofText? s.toList

def toString (a : Address) : String := String.ofList a.text

end NodeWatch.Net.Address
