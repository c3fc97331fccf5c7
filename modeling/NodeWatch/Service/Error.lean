import NodeWatch.Backend.Error

/-!
Why a service cannot be made or started.
-/

namespace NodeWatch.Service

inductive Error where
  | alreadyRunning
  | config (message : String)
  | backend (source : Backend.Error)
  deriving DecidableEq

namespace Error

def message : Error → String
  | alreadyRunning => "discovery service is already running"
  | config m => "invalid discovery configuration: " ++ m
  | backend e => "discovery backend error: " ++ e.message

/-- The kind of an error in one word. -/
def kind : Error → String
  | alreadyRunning => "already_running"
  | config _ => "config"
  | backend _ => "backend"

end Error

end NodeWatch.Service
