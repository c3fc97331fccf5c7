import NodeWatch.Text.Blank
import NodeWatch.Text.Lower

/-!
The ways of looking for nodes.
-/

namespace NodeWatch.Config

open Text

inductive Method where
  | broadcast
  | probe
  | static
  deriving DecidableEq

namespace Method

def text : Method → String
  | broadcast => "broadcast"
  | probe => "probe"
  | static => "static"

/-- Another name for listening to broadcasts. -/
def broadcastAlias : String := "mdns"

/-- The method of a name written exactly. -/
def ofName? (s : String) : Option Method :=
  if s = broadcastAlias then some broadcast
  else [broadcast, probe, static].find? (·.text = s)

/-- A name without the blanks around it and in lower case. -/
def folded (s : String) : String := String.ofList (lowerAscii (trim s.toList))

/-- The method of a name in any case, with or without blanks around it. -/
def ofText? (s : String) : Option Method := ofName? (folded s)

end Method

end NodeWatch.Config
