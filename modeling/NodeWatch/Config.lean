import NodeWatch.Config.Discovery
import NodeWatch.Net.Endpoint

/-!
All settings of the program, and what makes them valid together.
-/

namespace NodeWatch

namespace Config

/-- What the program tells others about the machine it runs on. -/
structure Announce where
  instanceName : Option String := none
  port : UInt16 := defaultPort
  ttlSecs : UInt32 := 120
  reannounceSecs : UInt64 := 60
  capabilities : List String := []
  version : String := "0.1.0"
  deriving DecidableEq

structure Storage where
  path : String := "data/pifleet.db"
  deriving DecidableEq

structure Logging where
  level : String := "info"
  format : String := "text"
  deriving DecidableEq

/-- Where the state of the program is to be asked for. -/
structure Status where
  enabled : Bool := true
  bindAddress : Net.Endpoint := { address := .v4 0 0 0 0, port := 9092 }
  deriving DecidableEq

/-- Where events are sent. -/
structure Notify where
  webhookUrl : Option String := none
  timeoutSecs : UInt64 := 10
  authToken : Option String := none
  maxRetries : UInt32 := 3
  deriving DecidableEq

def Announce.reannounceInterval (c : Announce) : Time.Span := .ofSeconds c.reannounceSecs.toNat
def Notify.timeout (c : Notify) : Time.Span := .ofSeconds c.timeoutSecs.toNat

end Config

structure Config where
  discovery : Config.Discovery := {}
  announce : Config.Announce := {}
  storage : Config.Storage := {}
  logging : Config.Logging := {}
  status : Config.Status := {}
  notify : Config.Notify := {}
  deriving DecidableEq

namespace Config

/-- What is wrong with settings as a whole. -/
inductive Invalid where
  | discovery (fault : Fault)
  | reannounceZero
  | ttlShort
  | logFormat
  | webhookUrl
  deriving DecidableEq

def Invalid.message : Invalid → String
  | discovery f => f.message
  | reannounceZero => "announce.reannounce_secs must be greater than 0"
  | ttlShort => "announce.ttl_secs must not be shorter than reannounce_secs"
  | logFormat => "logging.format must be 'text' or 'json'"
  | webhookUrl => "notify.webhook_url must be an http(s) URL"

/-- The text begins like the address of a web page. -/
def isWebUrl (s : String) : Bool :=
  "http://".toList.isPrefixOf s.toList || "https://".toList.isPrefixOf s.toList

/-- The first thing that is wrong, if there is any. -/
def invalid? (c : Config) : Option Invalid :=
  match c.discovery.fault? with
  | some f => some (.discovery f)
  | none =>
    if c.announce.reannounceSecs = 0 then some .reannounceZero
    else if c.announce.ttlSecs.toNat < c.announce.reannounceSecs.toNat then some .ttlShort
    else if c.logging.format ≠ "text" ∧ c.logging.format ≠ "json" then some .logFormat
    else if c.notify.webhookUrl.any fun u => !isWebUrl u then some .webhookUrl
    else none

end Config

end NodeWatch
