import NodeWatch.Time.Span

/-!
How a look at the network fails.
-/

namespace NodeWatch.Backend

inductive Error where
  | timeout (after : Time.Span)
  | inputOutput (message : String)
  | mdns (message : String)
  | noInterface (name : Option String)
  | invalidAddress (address reason : String)
  | closed
  deriving DecidableEq

namespace Error

def message : Error → String
  | timeout d => "sample timed out after " ++ String.ofList d.text
  | inputOutput m => "I/O error: " ++ m
  | mdns m => "mDNS error: " ++ m
  | noInterface n => "no usable network interface" ++ ((n.map (" named " ++ ·)).getD "")
  | invalidAddress a r => "invalid node address '" ++ a ++ "': " ++ r
  | closed => "backend is shut down"

/-- The kind of an error in one word. -/
def kind : Error → String
  | timeout _ => "timeout"
  | inputOutput _ => "io"
  | mdns _ => "mdns"
  | noInterface _ => "no_interface"
  | invalidAddress .. => "invalid_address"
  | closed => "closed"

/-- The settings are to blame. -/
def isConfig : Error → Bool
  | invalidAddress .. => true
  | _ => false

end Error

end NodeWatch.Backend
