import NodeWatch.Backend
import NodeWatch.Service

/-!
A service with the way of looking that its settings ask for.
-/

namespace NodeWatch.Service

/-- A backend that cannot be made because of the settings is a fault of the settings. -/
def Error.ofBackend (e : Backend.Error) : Error :=
  if e.isConfig then .config e.message else .backend e

def ofConfig (c : Config.Discovery) (m : Metrics) (now : Time.Instant)
    (clock : Time.Clock := .standard) : Except Error (Backend × Service) :=
  match c.fault? with
  | some f => .error (.config f.message)
  | none =>
    match Backend.ofConfig c now with
    | .error e => .error (.ofBackend e)
    | .ok b => (make c b.name b.pins m clock).map (b, ·)

end NodeWatch.Service
