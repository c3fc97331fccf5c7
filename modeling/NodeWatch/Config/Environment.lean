import NodeWatch.Config
import NodeWatch.Text.Bytes

/-!
Settings from environment variables.

A variable whose bytes are no text counts as not set. A number or a truth value that cannot be read
leaves the default as it is; only the name of a method must be right.
-/

namespace NodeWatch.Config

open Text

/-- The bytes of each variable that is set. -/
abbrev Environment := String → Option (List UInt8)

namespace Environment

def empty : Environment := fun _ => none

def text? (e : Environment) (name : String) : Option String := (e name).bind ofBytes?

/-- What a text means, blanks around it left out. -/
def parsed? {α : Type} (e : Environment) (name : String) (read : List Char → Option α) : Option α :=
  (e.text? name).bind fun s => read (trim s.toList)

def number? (e : Environment) (name : String) (max : Nat) : Option Nat :=
  e.parsed? name (unsigned? max)

def truth? (e : Environment) (name : String) : Option Bool :=
  e.parsed? name fun s =>
    if s = "true".toList then some true else if s = "false".toList then some false else none

/-- The trimmed parts between commas, without blank ones. -/
def parts? (e : Environment) (name : String) : Option (List String) :=
  (e.text? name).map fun s =>
    (((split ',' s.toList).map trim).filter (· ≠ [])).map String.ofList

end Environment

open Environment

/-- The variables that are read. -/
inductive Variable where
  | method
  | interface
  | interval
  | timeout
  | staticNodes
  | serviceName
  | serviceType
  | domain
  | probePort
  | probeConcurrency
  | stalenessMultiplier
  | sweepMultiplier
  | instanceName
  | announcePort
  | announceTtl
  | capabilities
  | storagePath
  | statusEnabled
  | statusBind
  | webhookUrl
  | webhookToken
  | logLevel
  | logFormat
  deriving DecidableEq

def Variable.all : List Variable :=
  [.method, .interface, .interval, .timeout, .staticNodes, .serviceName, .serviceType, .domain,
    .probePort, .probeConcurrency, .stalenessMultiplier, .sweepMultiplier, .instanceName,
    .announcePort, .announceTtl, .capabilities, .storagePath, .statusEnabled, .statusBind,
    .webhookUrl, .webhookToken, .logLevel, .logFormat]

def Variable.name : Variable → String
  | method => "PIFLEET_DISCOVERY_METHOD"
  | interface => "PIFLEET_DISCOVERY_INTERFACE"
  | interval => "PIFLEET_DISCOVERY_INTERVAL"
  | timeout => "PIFLEET_DISCOVERY_TIMEOUT"
  | staticNodes => "PIFLEET_STATIC_NODES"
  | serviceName => "PIFLEET_SERVICE_NAME"
  | serviceType => "PIFLEET_SERVICE_TYPE"
  | domain => "PIFLEET_DOMAIN"
  | probePort => "PIFLEET_PROBE_PORT"
  | probeConcurrency => "PIFLEET_PROBE_CONCURRENCY"
  | stalenessMultiplier => "PIFLEET_STALENESS_MULTIPLIER"
  | sweepMultiplier => "PIFLEET_SWEEP_MULTIPLIER"
  | instanceName => "PIFLEET_INSTANCE_NAME"
  | announcePort => "PIFLEET_ANNOUNCE_PORT"
  | announceTtl => "PIFLEET_ANNOUNCE_TTL"
  | capabilities => "PIFLEET_CAPABILITIES"
  | storagePath => "PIFLEET_SQLITE_PATH"
  | statusEnabled => "PIFLEET_STATUS_ENABLED"
  | statusBind => "PIFLEET_STATUS_BIND"
  | webhookUrl => "PIFLEET_WEBHOOK_URL"
  | webhookToken => "PIFLEET_WEBHOOK_TOKEN"
  | logLevel => "PIFLEET_LOG_LEVEL"
  | logFormat => "PIFLEET_LOG_FORMAT"

/-- The method that is asked for. -/
def methodFrom (e : Environment) : Except Fault Method :=
  match e.text? Variable.method.name with
  | some s => methodOf s
  | none => .ok ({} : Discovery).method

def discoveryFrom (e : Environment) (m : Method) : Discovery :=
  let c : Discovery := {}
  let u64 (v : Variable) (default : UInt64) : UInt64 :=
    ((e.number? v.name u64Max).map UInt64.ofNat).getD default
  let u32 (v : Variable) (default : UInt32) : UInt32 :=
    ((e.number? v.name u32Max).map UInt32.ofNat).getD default
  { c with
    method := m
    interface := (e.text? Variable.interface.name).filter (!isBlankText ·)
    intervalSecs := u64 .interval c.intervalSecs
    timeoutSecs := u64 .timeout c.timeoutSecs
    staticNodes := (e.parts? Variable.staticNodes.name).getD []
    serviceName := (e.text? Variable.serviceName.name).getD c.serviceName
    serviceType := (e.text? Variable.serviceType.name).getD c.serviceType
    domain := (e.text? Variable.domain.name).getD c.domain
    probePort := ((e.number? Variable.probePort.name u16Max).map UInt16.ofNat).getD c.probePort
    probeConcurrency := u64 .probeConcurrency c.probeConcurrency
    stalenessMultiplier := u32 .stalenessMultiplier c.stalenessMultiplier
    sweepMultiplier := u32 .sweepMultiplier c.sweepMultiplier }

def announceFrom (e : Environment) : Announce :=
  let c : Announce := {}
  { c with
    instanceName := e.text? Variable.instanceName.name
    port := ((e.number? Variable.announcePort.name u16Max).map UInt16.ofNat).getD c.port
    ttlSecs := ((e.number? Variable.announceTtl.name u32Max).map UInt32.ofNat).getD c.ttlSecs
    capabilities := (e.parts? Variable.capabilities.name).getD [] }

def statusFrom (e : Environment) : Status :=
  let c : Status := {}
  { enabled := (e.truth? Variable.statusEnabled.name).getD c.enabled
    bindAddress := (e.parsed? Variable.statusBind.name Net.Endpoint.ofText?).getD c.bindAddress }

/-- All settings; those that no variable sets have their defaults. -/
def fromEnvironment (e : Environment) : Except Fault Config := do
  let m ← methodFrom e
  return {
    discovery := discoveryFrom e m
    announce := announceFrom e
    storage := { path := (e.text? Variable.storagePath.name).getD ({} : Storage).path }
    logging := {
      level := (e.text? Variable.logLevel.name).getD ({} : Logging).level
      format := (e.text? Variable.logFormat.name).getD ({} : Logging).format }
    status := statusFrom e
    notify := {
      webhookUrl := e.text? Variable.webhookUrl.name
      authToken := e.text? Variable.webhookToken.name } }

end NodeWatch.Config
