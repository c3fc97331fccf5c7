import NodeWatch.Distinct
import NodeWatch.Text.Blank
import NodeWatch.Text.Split

/-!
Capability lists: distinct trimmed words, written with commas between them.
-/

namespace NodeWatch.Capabilities

open Text

/-- The list a text writes: its trimmed parts between commas, without blank ones and repetitions. -/
def ofText (s : List Char) : List (List Char) :=
  distinct (((split ',' s).map trim).filter (· ≠ []))

def ofString (s : String) : List String := (ofText s.toList).map String.ofList

end NodeWatch.Capabilities
