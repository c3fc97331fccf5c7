import NodeWatch.Config.Discovery
import NodeWatch.Json.Lookup

/-!
Settings that are given one by one and override others.
-/

namespace NodeWatch.Config.Discovery

/-- The settings with those put in that the object gives; what is of another kind is left out. Only
the name of a method must be right. -/
def given (c : Discovery) (v : Json) : Except Fault Discovery := do
  let method ← (v.textAt? "method").elim (.ok c.method) methodOf
  let u64 (k : String) (old : UInt64) : UInt64 := ((v.natAt? k).map UInt64.ofNat).getD old
  let u32 (k : String) (old : UInt32) : UInt32 := ((v.natAt? k).map UInt32.ofNat).getD old
  return { c with
    method
    interface := v.textAt? "interface" <|> c.interface
    intervalSecs := u64 "interval_secs" c.intervalSecs
    timeoutSecs := u64 "timeout_secs" c.timeoutSecs
    staticNodes :=
      if (v.get? "static_nodes").isSome then v.textsAt "static_nodes" else c.staticNodes
    serviceName := (v.textAt? "service_name").getD c.serviceName
    serviceType := (v.textAt? "service_type").getD c.serviceType
    domain := (v.textAt? "domain").getD c.domain
    probePort := ((v.natAt? "probe_port").map UInt16.ofNat).getD c.probePort
    probeConcurrency := u64 "probe_concurrency" c.probeConcurrency
    stalenessMultiplier := u32 "staleness_multiplier" c.stalenessMultiplier
    sweepMultiplier := u32 "sweep_multiplier" c.sweepMultiplier
    shutdownGraceSecs := u64 "shutdown_grace_secs" c.shutdownGraceSecs
    observerQueueCapacity := u64 "observer_queue_capacity" c.observerQueueCapacity }

/-- The settings, if nothing is wrong with them. -/
def checked (c : Discovery) : Except Fault Discovery :=
  match c.fault? with
  | some f => .error f
  | none => .ok c

end NodeWatch.Config.Discovery
