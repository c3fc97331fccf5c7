import NodeWatch.Config
import NodeWatch.NodeName
import NodeWatch.Observation
import NodeWatch.ServiceRecord

/-!
Telling the local network about the machine the program runs on.
-/

namespace NodeWatch

open Text

/-- What is known of the machine. -/
structure Machine where
  name : String
  architecture : String
  model : Option String

structure Announcement where
  instanceName : String
  serviceType : String
  domain : String
  host : String
  addresses : List Net.Address
  port : UInt16
  properties : Attributes
  ttlSecs : UInt32
  deriving DecidableEq

namespace Announcement

inductive Error where
  | mdns (message : String)
  | emptyInstance
  | zeroPort
  | zeroInterval
  | invalid (message : String)
  deriving DecidableEq

namespace Error

def message : Error → String
  | mdns m => "mDNS error: " ++ m
  | emptyInstance => "invalid announcement: instance name is empty"
  | zeroPort => "invalid announcement: port must be greater than 0"
  | zeroInterval => "invalid announcement: re-announce interval must be greater than 0"
  | invalid m => "invalid announcement: " ++ m

def isMdns : Error → Bool
  | mdns _ => true
  | _ => false

end Error

/-- The label for a machine whose name gives none. -/
def fallbackLabel : String := "pifleet-node"

def hostLabel (m : Machine) : String :=
  ((NodeName.label? m.name.toList).map String.ofList).getD fallbackLabel

def instanceOf (c : Config.Announce) (d : Config.Discovery) (m : Machine) : String :=
  (c.instanceName.filter fun n => !isBlankText n).getD (d.serviceName ++ "-" ++ hostLabel m)

def propertiesOf (c : Config.Announce) (d : Config.Discovery) (m : Machine) : Attributes :=
  let named := (Attributes.empty.insert Observation.Key.name.text (instanceOf c d m)).insert
    Observation.Key.arch.text m.architecture
  let modelled := match m.model with
    | some model => named.insert Observation.Key.model.text model
    | none => named
  let versioned := modelled.insert Observation.Key.version.text c.version
  if c.capabilities = [] then versioned
  else versioned.insert Observation.Key.capabilities.text (joinWith "," c.capabilities)

/-- The announcement of this machine. -/
def ofMachine (c : Config.Announce) (d : Config.Discovery) (m : Machine) : Announcement :=
  let domain := String.ofList (trimBy (· = '.') d.domain.toList) ++ "."
  { instanceName := instanceOf c d m
    serviceType := String.ofList (dropEndWhile (· = '.') d.serviceType.toList)
    domain
    host := hostLabel m ++ "." ++ domain
    addresses := []
    port := c.port
    properties := propertiesOf c d m
    ttlSecs := c.ttlSecs }

def withProperty (a : Announcement) (k v : String) : Announcement :=
  { a with properties := a.properties.insert k v }

def withAddresses (a : Announcement) (as : List Net.Address) : Announcement :=
  { a with addresses := as }

def serviceTypeDomain (a : Announcement) : String := a.serviceType ++ "." ++ a.domain

def fullname (a : Announcement) : String := a.instanceName ++ "." ++ a.serviceTypeDomain

/-- The properties with the time to live among them. -/
def wireProperties (a : Announcement) : List (String × String) :=
  (a.properties.insert Observation.Key.ttl.text (String.ofList (decimal a.ttlSecs.toNat))).entries

/-- The record that goes over the wire. Without addresses the machine fills in its own. -/
def serviceRecord (a : Announcement) : Except Error ServiceRecord :=
  if isBlankText a.instanceName then .error .emptyInstance
  else if a.port = 0 then .error .zeroPort
  else
    match ServiceRecord.named a.serviceTypeDomain a.instanceName a.host
        (distinct a.addresses) a.port a.wireProperties with
    | .error f => .error (.mdns f.message)
    | .ok s => .ok { s with auto := a.addresses = [] }

/-- Why the announcement cannot be made again and again, if it cannot. -/
def startFault? (a : Announcement) (reannounce : Time.Span) : Option Error :=
  if reannounce.nanos = 0 then some .zeroInterval
  else match a.serviceRecord with
    | .error e => some e
    | .ok _ => none

end Announcement

end NodeWatch
