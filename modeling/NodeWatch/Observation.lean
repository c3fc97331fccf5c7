import NodeWatch.Attributes
import NodeWatch.Capabilities
import NodeWatch.Net.Endpoint
import NodeWatch.Time.Instant

/-!
What one look at the network says about one node. The identity is given by the way of looking and
means nothing beyond it.
-/

namespace NodeWatch

open Text

structure Observation where
  id : String
  name : String
  address : Net.Address
  port : UInt16
  serviceType : String
  metadata : Attributes
  capabilities : List String
  lastSeen : Time.Instant
  deriving DecidableEq

namespace Observation

/-- Keys of attributes that have a meaning. -/
inductive Key where
  | name
  | arch
  | architecture
  | model
  | version
  | capabilities
  | ttl
  | mac
  | discovery
  deriving DecidableEq

def Key.text : Key → String
  | name => "name"
  | arch => "arch"
  | architecture => "architecture"
  | model => "model"
  | version => "version"
  | capabilities => "capabilities"
  | ttl => "ttl"
  | mac => "mac"
  | discovery => "discovery"

/-- A node of which nothing but this is known. -/
def bare (id name : String) (address : Net.Address) (port : UInt16) (at_ : Time.Instant) :
    Observation :=
  ⟨id, name, address, port, "", .empty, [], at_⟩

def withServiceType (o : Observation) (t : String) : Observation := { o with serviceType := t }

/-- Sets an attribute. The capability attribute also replaces the list it writes. -/
def withAttribute (o : Observation) (k v : String) : Observation :=
  let caps := if k = Key.capabilities.text then Capabilities.ofString v else o.capabilities
  { o with capabilities := caps, metadata := o.metadata.insert k v }

def seenAt (o : Observation) (t : Time.Instant) : Observation := { o with lastSeen := t }

def endpoint (o : Observation) : Net.Endpoint := { address := o.address, port := o.port }

/-- The text without blanks around it, unless nothing remains. -/
def filled? (s : String) : Option String :=
  let t := trimmed s
  if t = "" then none else some t

/-- An attribute that is there and not blank, trimmed. -/
def attribute? (o : Observation) (k : String) : Option String :=
  (o.metadata.get? k).bind filled?

def architecture? (o : Observation) : Option String :=
  o.attribute? Key.arch.text <|> o.attribute? Key.architecture.text

def model? (o : Observation) : Option String := o.attribute? Key.model.text

/-- The name a node gives itself, else the one it was found under. -/
def displayName? (o : Observation) : Option String :=
  o.attribute? Key.name.text <|> filled? o.name

/-- All that is observed of a node at an identity, the time left out. -/
def data (o : Observation) :
    String × Net.Address × UInt16 × String × Attributes × List String :=
  (o.name, o.address, o.port, o.serviceType, o.metadata, o.capabilities)

/-- Something besides the time of observation is not the same. -/
def differsFrom (o p : Observation) : Bool := o.data ≠ p.data

/-- Puts an observation in the place of the one with its identity, or at the end. -/
def put (o : Observation) : List Observation → List Observation
  | [] => [o]
  | p :: r => if p.id = o.id then o :: r else p :: put o r

/-- The last observation of each identity, in the order in which identities first appear. -/
def latestById (os : List Observation) : List Observation :=
  os.foldl (fun found o => put o found) []

end Observation

end NodeWatch
