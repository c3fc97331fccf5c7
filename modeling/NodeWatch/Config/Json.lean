import NodeWatch.Config
import NodeWatch.Json.Decode

/-!
Settings as JSON. What is left out has its default.
-/

namespace NodeWatch.Config

open Json

def Method.json (m : Method) : Json := .str m.text

def Method.ofJson? (d : Dialect) (v : Json) : Option Method :=
  (v.asCase? d).bind Method.ofName?

namespace Discovery

def json (c : Discovery) : Json :=
  .obj [
    ("method", c.method.json),
    ("interface", .optStr c.interface),
    ("interval_secs", .nat c.intervalSecs.toNat),
    ("timeout_secs", .nat c.timeoutSecs.toNat),
    ("static_nodes", .strs c.staticNodes),
    ("service_name", .str c.serviceName),
    ("service_type", .str c.serviceType),
    ("domain", .str c.domain),
    ("probe_port", .nat c.probePort.toNat),
    ("probe_concurrency", .nat c.probeConcurrency.toNat),
    ("probe_max_hosts", .nat c.probeMaxHosts.toNat),
    ("probe_connect_timeout_ms", .nat c.probeConnectTimeoutMs.toNat),
    ("staleness_multiplier", .nat c.stalenessMultiplier.toNat),
    ("sweep_multiplier", .nat c.sweepMultiplier.toNat),
    ("shutdown_grace_secs", .nat c.shutdownGraceSecs.toNat),
    ("observer_queue_capacity", .nat c.observerQueueCapacity.toNat)]

def fieldNames : List String :=
  ["method", "interface", "interval_secs", "timeout_secs", "static_nodes", "service_name",
    "service_type", "domain", "probe_port", "probe_concurrency", "probe_max_hosts",
    "probe_connect_timeout_ms", "staleness_multiplier", "sweep_multiplier", "shutdown_grace_secs",
    "observer_queue_capacity"]

end Discovery

def asU16? (v : Json) : Option UInt16 := (v.asNat? Text.u16Max).map .ofNat
def asU32? (v : Json) : Option UInt32 := (v.asNat? Text.u32Max).map .ofNat
def asU64? (v : Json) : Option UInt64 := (v.asNat? Text.u64Max).map .ofNat

/-- The times that follow from the settings, in seconds, and the type in its domain; none if a time
is too long. -/
def Discovery.derived? (c : Discovery) : Option Json := do
  let staleness ← c.stalenessThreshold?
  let sweep ← c.sweepInterval?
  return .obj [
    ("interval", .nat c.interval.seconds),
    ("timeout", .nat c.timeout.seconds),
    ("staleness", .nat staleness.seconds),
    ("sweep", .nat sweep.seconds),
    ("grace", .nat c.shutdownGrace.seconds),
    ("service_type_domain", .str (String.ofList c.serviceTypeDomain))]

def Discovery.ofJson? (v : Json) (d : Dialect := .plain) : Option Discovery := do
  let fs ← record? fieldNames v d
  let c : Discovery := {}
  return {
    method := ← withDefault? fs "method" c.method (Method.ofJson? d)
    interface := ← withDefault? fs "interface" c.interface (asOption? asText?)
    intervalSecs := ← withDefault? fs "interval_secs" c.intervalSecs asU64?
    timeoutSecs := ← withDefault? fs "timeout_secs" c.timeoutSecs asU64?
    staticNodes := ← withDefault? fs "static_nodes" c.staticNodes (asList? asText?)
    serviceName := ← withDefault? fs "service_name" c.serviceName asText?
    serviceType := ← withDefault? fs "service_type" c.serviceType asText?
    domain := ← withDefault? fs "domain" c.domain asText?
    probePort := ← withDefault? fs "probe_port" c.probePort asU16?
    probeConcurrency := ← withDefault? fs "probe_concurrency" c.probeConcurrency asU64?
    probeMaxHosts := ← withDefault? fs "probe_max_hosts" c.probeMaxHosts asU64?
    probeConnectTimeoutMs :=
      ← withDefault? fs "probe_connect_timeout_ms" c.probeConnectTimeoutMs asU64?
    stalenessMultiplier := ← withDefault? fs "staleness_multiplier" c.stalenessMultiplier asU32?
    sweepMultiplier := ← withDefault? fs "sweep_multiplier" c.sweepMultiplier asU32?
    shutdownGraceSecs := ← withDefault? fs "shutdown_grace_secs" c.shutdownGraceSecs asU64?
    observerQueueCapacity :=
      ← withDefault? fs "observer_queue_capacity" c.observerQueueCapacity asU64? }

namespace Announce

def json (c : Announce) : Json :=
  .obj [
    ("instance_name", .optStr c.instanceName),
    ("port", .nat c.port.toNat),
    ("ttl_secs", .nat c.ttlSecs.toNat),
    ("reannounce_secs", .nat c.reannounceSecs.toNat),
    ("capabilities", .strs c.capabilities),
    ("version", .str c.version)]

def ofJson? (v : Json) (d : Dialect := .plain) : Option Announce := do
  let fs ← record?
    ["instance_name", "port", "ttl_secs", "reannounce_secs", "capabilities", "version"] v d
  let c : Announce := {}
  return {
    instanceName := ← withDefault? fs "instance_name" c.instanceName (asOption? asText?)
    port := ← withDefault? fs "port" c.port asU16?
    ttlSecs := ← withDefault? fs "ttl_secs" c.ttlSecs asU32?
    reannounceSecs := ← withDefault? fs "reannounce_secs" c.reannounceSecs asU64?
    capabilities := ← withDefault? fs "capabilities" c.capabilities (asList? asText?)
    version := ← withDefault? fs "version" c.version asText? }

end Announce

namespace Storage

def json (c : Storage) : Json := .obj [("sqlite_path", .str c.path)]

def ofJson? (v : Json) (d : Dialect := .plain) : Option Storage := do
  let fs ← record? ["sqlite_path"] v d
  return { path := ← withDefault? fs "sqlite_path" ({} : Storage).path asText? }

end Storage

namespace Logging

def json (c : Logging) : Json := .obj [("level", .str c.level), ("format", .str c.format)]

def ofJson? (v : Json) (d : Dialect := .plain) : Option Logging := do
  let fs ← record? ["level", "format"] v d
  let c : Logging := {}
  return {
    level := ← withDefault? fs "level" c.level asText?
    format := ← withDefault? fs "format" c.format asText? }

end Logging

namespace Status

def json (c : Status) : Json :=
  .obj [("enabled", .bool c.enabled), ("bind_address", .str c.bindAddress.toString)]

def endpointOfJson? (v : Json) : Option Net.Endpoint :=
  v.asText?.bind fun s => Net.Endpoint.ofText? s.toList

def ofJson? (v : Json) (d : Dialect := .plain) : Option Status := do
  let fs ← record? ["enabled", "bind_address"] v d
  let c : Status := {}
  return {
    enabled := ← withDefault? fs "enabled" c.enabled asBool?
    bindAddress := ← withDefault? fs "bind_address" c.bindAddress endpointOfJson? }

end Status

namespace Notify

def json (c : Notify) : Json :=
  .obj [
    ("webhook_url", .optStr c.webhookUrl),
    ("timeout_secs", .nat c.timeoutSecs.toNat),
    ("auth_token", .optStr c.authToken),
    ("max_retries", .nat c.maxRetries.toNat)]

def ofJson? (v : Json) (d : Dialect := .plain) : Option Notify := do
  let fs ← record? ["webhook_url", "timeout_secs", "auth_token", "max_retries"] v d
  let c : Notify := {}
  return {
    webhookUrl := ← withDefault? fs "webhook_url" c.webhookUrl (asOption? asText?)
    timeoutSecs := ← withDefault? fs "timeout_secs" c.timeoutSecs asU64?
    authToken := ← withDefault? fs "auth_token" c.authToken (asOption? asText?)
    maxRetries := ← withDefault? fs "max_retries" c.maxRetries asU32? }

end Notify

def json (c : Config) : Json :=
  .obj [
    ("discovery", c.discovery.json),
    ("announce", c.announce.json),
    ("storage", c.storage.json),
    ("logging", c.logging.json),
    ("status", c.status.json),
    ("notify", c.notify.json)]

def ofJson? (v : Json) (d : Dialect := .plain) : Option Config := do
  let fs ← record? ["discovery", "announce", "storage", "logging", "status", "notify"] v d
  let c : Config := {}
  return {
    discovery := ← withDefault? fs "discovery" c.discovery (Discovery.ofJson? · d)
    announce := ← withDefault? fs "announce" c.announce (Announce.ofJson? · d)
    storage := ← withDefault? fs "storage" c.storage (Storage.ofJson? · d)
    logging := ← withDefault? fs "logging" c.logging (Logging.ofJson? · d)
    status := ← withDefault? fs "status" c.status (Status.ofJson? · d)
    notify := ← withDefault? fs "notify" c.notify (Notify.ofJson? · d) }

end NodeWatch.Config
