import NodeWatch.Config.Fault
import NodeWatch.Config.Method
import NodeWatch.Text.Split
import NodeWatch.Time.Span

/-!
How nodes are looked for: settings, what makes them valid, and what follows from them.
-/

namespace NodeWatch.Config

open Text

def defaultServiceType : String := "_pifleet._tcp"
def defaultDomain : String := "local."
def defaultPort : UInt16 := 9091

structure Discovery where
  method : Method := .broadcast
  interface : Option String := none
  intervalSecs : UInt64 := 30
  timeoutSecs : UInt64 := 5
  staticNodes : List String := []
  serviceName : String := "pifleet"
  serviceType : String := defaultServiceType
  domain : String := defaultDomain
  probePort : UInt16 := defaultPort
  probeConcurrency : UInt64 := 64
  probeMaxHosts : UInt64 := 1024
  probeConnectTimeoutMs : UInt64 := 300
  stalenessMultiplier : UInt32 := 3
  sweepMultiplier : UInt32 := 2
  shutdownGraceSecs : UInt64 := 5
  observerQueueCapacity : UInt64 := 256
  deriving DecidableEq

/-- A name behind an underscore and one of two protocols; dots at the end do not count. -/
def isServiceType (s : List Char) : Bool :=
  match split '.' (dropEndWhile (· = '.') s) with
  | ['_' :: name, proto] => name ≠ [] && (proto = "_tcp".toList || proto = "_udp".toList)
  | _ => false

/-- A service type in a domain: one dot between them and one at the end. -/
def typeInDomain (type domain : String) : List Char :=
  dropEndWhile (· = '.') type.toList ++ '.' :: trimBy (· = '.') domain.toList ++ ['.']

/-- A method by its name. -/
def methodOf (s : String) : Except Fault Method :=
  match Method.ofText? s with
  | some m => .ok m
  | none => .error (.invalid "method" (.unknownMethod (Method.folded s)))

namespace Discovery

/-- The first fault, if there is any. -/
def fault? (c : Discovery) : Option Fault :=
  if c.intervalSecs = 0 then some (.invalid "interval_secs" .notPositive)
  else if c.timeoutSecs = 0 ∨ c.intervalSecs ≤ c.timeoutSecs then
    some (.invalid "timeout_secs" .timeoutRange)
  else if c.stalenessMultiplier = 0 then some (.invalid "staleness_multiplier" .belowOne)
  else if c.sweepMultiplier = 0 then some (.invalid "sweep_multiplier" .belowOne)
  else if c.observerQueueCapacity = 0 then some (.invalid "observer_queue_capacity" .notPositive)
  else if !isServiceType c.serviceType.toList then
    some (.invalid "service_type" (.serviceType c.serviceType))
  else if c.method = .probe ∧ c.probeConcurrency = 0 then
    some (.invalid "probe_concurrency" .notPositive)
  else if c.interface.any isBlankText then some (.invalid "interface" .blank)
  else none

def interval (c : Discovery) : Time.Span := .ofSeconds c.intervalSecs.toNat
def timeout (c : Discovery) : Time.Span := .ofSeconds c.timeoutSecs.toNat
def shutdownGrace (c : Discovery) : Time.Span := .ofSeconds c.shutdownGraceSecs.toNat

/-- How long a node may go unobserved; none if that is longer than any span. -/
def stalenessThreshold? (c : Discovery) : Option Time.Span :=
  c.interval.scale? c.stalenessMultiplier.toNat

/-- The time between two sweeps; none if that is longer than any span. -/
def sweepInterval? (c : Discovery) : Option Time.Span := c.interval.scale? c.sweepMultiplier.toNat

/-- What becomes of a multiple that is too long. -/
def overflowMessage : String := "overflow when multiplying duration by scalar"

def serviceTypeDomain (c : Discovery) : List Char := typeInDomain c.serviceType c.domain

end Discovery

end NodeWatch.Config
