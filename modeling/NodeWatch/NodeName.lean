import NodeWatch.Net.Address.Text
import NodeWatch.Text.Blank
import NodeWatch.Text.Bytes
import NodeWatch.Text.Lower
import NodeWatch.Text.Numeral

/-!
Names under which nodes are registered: labels of at most 63 small letters, digits and inner
hyphens.
-/

namespace NodeWatch.NodeName

open Text

def maxLength : Nat := 63

/-- The characters a label is made of, besides hyphens. -/
def isLabelChar (c : Char) : Bool := ('a' ≤ c && c ≤ 'z') || ('0' ≤ c && c ≤ '9')

/-- The label characters of a text, one hyphen wherever others stood between two of them. `started`
once a character was kept, `gap` when one was skipped since. -/
def words : (started gap : Bool) → List Char → List Char
  | _, _, [] => []
  | started, gap, c :: r =>
    if isLabelChar c then
      (if started && gap then ['-', c] else [c]) ++ words true false r
    else words started true r

/-- The label made of a display name; none if nothing of it can be kept. -/
def label? (s : List Char) : Option (List Char) :=
  match dropEndWhile (· = '-') ((words false false (lower s)).take maxLength) with
  | [] => none
  | l => some l

/-- The name cut so that it fits with a hyphen and the whole suffix behind it. -/
def withSuffix (base suffix : List Char) : List Char :=
  let room := maxLength - (utf8Length suffix + 1)
  dropEndWhile (· = '-') (base.take room) ++ '-' :: suffix

/-- An address with hyphens for its dots and colons. -/
def dashed (a : Net.Address) : List Char :=
  a.text.map fun c => if c = '.' ∨ c = ':' then '-' else c

/-- A suffix of four characters that differs from one number below 65536 to the next. -/
def suffixOf (n : Nat) : List Char :=
  let ds := digits 16 n
  List.replicate (4 - ds.length) '0' ++ ds

end NodeWatch.NodeName
