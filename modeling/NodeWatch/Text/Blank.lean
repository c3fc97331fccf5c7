/-!
Blank characters and the cuts made with them, over lists of characters.

A character is blank if it has the property `White_Space`; ASCII tools that know only the space
and the tab would cut less.
-/

namespace NodeWatch.Text

/-- The characters with the property `White_Space`. -/
def isBlank (c : Char) : Bool :=
  let n := c.toNat
  (9 ≤ n && n ≤ 13) || n = 0x20 || n = 0x85 || n = 0xA0 || n = 0x1680
    || (0x2000 ≤ n && n ≤ 0x200A) || n = 0x2028 || n = 0x2029 || n = 0x202F || n = 0x205F
    || n = 0x3000

/-- A list without the longest run at its end whose elements all satisfy `p`. -/
def dropEndWhile {α : Type} (p : α → Bool) (l : List α) : List α :=
  (l.reverse.dropWhile p).reverse

/-- Cuts at both ends what satisfies `p`. -/
def trimBy {α : Type} (p : α → Bool) (l : List α) : List α :=
  dropEndWhile p (l.dropWhile p)

def trim (s : List Char) : List Char := trimBy isBlank s

/-- `trim` on strings. -/
def trimmed (s : String) : String := String.ofList (trim s.toList)

def isBlankText (s : String) : Bool := s.toList.all isBlank

end NodeWatch.Text
