import NodeWatch.Observation

/-!
Changes of membership.
-/

namespace NodeWatch

/-- An identity appears, its data change, or it is given up. -/
inductive EventKind where
  | discovered
  | updated
  | lost
  deriving DecidableEq

namespace EventKind

def text : EventKind → String
  | discovered => "discovered"
  | updated => "updated"
  | lost => "lost"

def ofText? (s : String) : Option EventKind :=
  [discovered, updated, lost].find? (·.text = s)

end EventKind

structure Event where
  kind : EventKind
  node : Observation
  deriving DecidableEq

def Event.toString (e : Event) : String :=
  e.kind.text ++ " " ++ e.node.id ++ " (" ++ e.node.endpoint.toString ++ ")"

end NodeWatch
