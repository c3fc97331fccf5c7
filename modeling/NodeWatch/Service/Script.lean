import NodeWatch.Service.Timeline

/-!
Looks whose course is told in advance.
-/

namespace NodeWatch.Service

/-- What there is to be seen, whether looks fail, whether they never end, and how long they take
otherwise. -/
structure Script where
  nodes : List Observation := []
  failure : Option Backend.Error := none
  hangs : Bool := false
  delayMs : Nat := 0

def Script.outlook (s : Script) : Outlook :=
  ⟨s.failure.elim (.ok s.nodes) .error, if s.hangs then none else some s.delayMs⟩

/-- The error that a word stands for. -/
def Script.failureOf (word : String) : Backend.Error :=
  match word with
  | "io" => .inputOutput ""
  | "mdns" => .mdns ""
  | "no_interface" => .noInterface none
  | "invalid_address" => .invalidAddress "" ""
  | _ => .closed

end NodeWatch.Service
