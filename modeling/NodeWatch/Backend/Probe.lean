import NodeWatch.Backend.Error
import NodeWatch.Net.Subnet
import NodeWatch.NodeName
import NodeWatch.Observation

/-!
Nodes that are found by trying every address of the subnets around. Whatever lets itself be
connected to counts as a node.
-/

namespace NodeWatch.Backend.Probe

/-- A network interface with an address of the first family. -/
structure Interface where
  name : String
  address : BitVec 32
  mask : BitVec 32

/-- The addresses to try: the hosts around each interface of the wanted name, or around all, each
once and none of them an own address. -/
def candidates (wanted : Option String) (maxHosts : Nat) (interfaces : List Interface) :
    Except Error (List Net.Address) :=
  let used := interfaces.filter fun i => wanted.all (· = i.name)
  if used = [] then .error (.noInterface wanted)
  else
    let hosts (i : Interface) : List Net.Address :=
      ((Net.Subnet.hosts i.address i.mask maxHosts).toOption.getD .empty).toList
    let own := used.map fun i => Net.Address.ofBits i.address
    .ok ((distinct (used.flatMap hosts)).filter fun a => !own.contains a)

def nodeAt (serviceType : String) (now : Time.Instant) (e : Net.Endpoint) : Observation :=
  let name := "node-" ++ String.ofList (NodeName.dashed e.address)
  ((Observation.bare ("probe:" ++ e.toString) name e.address e.port now).withServiceType
      serviceType)
    |>.withAttribute Observation.Key.discovery.text "probe"

/-- The nodes among some addresses, if `reached` tells which of them answer. -/
def found (reached : Net.Endpoint → Bool) (port : UInt16) (serviceType : String)
    (now : Time.Instant) (addresses : List Net.Address) : List Observation :=
  ((addresses.map fun a => ({ address := a, port } : Net.Endpoint)).filter reached).map
    (nodeAt serviceType now)

end NodeWatch.Backend.Probe
