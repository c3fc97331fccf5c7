import NodeWatch.Backend.Broadcast
import NodeWatch.Backend.Probe
import NodeWatch.Backend.Static
import NodeWatch.Config.Discovery

/-!
The way of looking that the settings ask for.
-/

namespace NodeWatch

/-- Listed nodes, addresses to be tried, or announcements to be heard. -/
inductive Backend where
  | static (nodes : List Observation)
  | probe (wanted : Option String) (port : UInt16) (maxHosts : Nat) (serviceType : String)
  | broadcast (listenType : String)

namespace Backend

/-- What there is around the machine to be found: its network interfaces, the endpoints that can be
connected to, and the service records that were heard. -/
structure Surroundings where
  interfaces : List Probe.Interface := []
  reached : Net.Endpoint → Bool := fun _ => false
  heard : List ServiceRecord := []

def method : Backend → Config.Method
  | static _ => .static
  | probe .. => .probe
  | broadcast _ => .broadcast

def name (b : Backend) : String := b.method.text

/-- Members that such a look finds are never given up. -/
def pins (b : Backend) : Bool := b.method = .static

def ofConfig (c : Config.Discovery) (now : Time.Instant) (resolve : Net.Resolver := .empty) :
    Except Error Backend :=
  match c.method with
  | .static => (Static.nodes c.staticNodes c.serviceType now resolve).map .static
  | .probe => .ok (.probe c.interface c.probePort (max 1 c.probeMaxHosts.toNat) c.serviceType)
  | .broadcast => .ok (.broadcast (String.ofList c.serviceTypeDomain))

/-- What one look brings. -/
def look (b : Backend) (s : Surroundings) (now : Time.Instant) :
    Except Error (List Observation) :=
  match b with
  | static nodes => .ok (Static.sample nodes now)
  | probe wanted port maxHosts serviceType =>
    (Probe.candidates wanted maxHosts s.interfaces).map
      (Probe.found s.reached port serviceType now)
  | broadcast listenType =>
    .ok (Observation.latestById (s.heard.filterMap fun r => Broadcast.observe r listenType now))

end Backend

end NodeWatch
