import NodeWatch.Observation
import NodeWatch.ServiceRecord

/-!
Nodes that announce themselves by service records.
-/

namespace NodeWatch.Backend.Broadcast

open Text

/-- An address of the first family, if there is one, otherwise the first. -/
def addressOf (as : List Net.Address) : Option Net.Address :=
  as.find? (·.isV4) <|> as.head?

/-- The instance in a full name: what precedes the type that was listened for. A record of another
type, or without an instance, goes by its host. -/
def instanceOf (s : ServiceRecord) (listenType : String) : List Char :=
  let trimmed (t : List Char) := dropEndWhile (· = '.') t
  match (beforeEnd listenType.toList s.fullname.toList).map trimmed with
  | none | some [] => trimmed s.host.toList
  | some t => t

/-- The service and the protocol of a type, without its domain. -/
def tagOf (listenType : String) : List Char := join ['.'] ((split '.' listenType.toList).take 2)

/-- The node that a record found while listening for a type tells of; none without an address. -/
def observe (s : ServiceRecord) (listenType : String) (now : Time.Instant) : Option Observation :=
  (addressOf s.addresses).map fun a =>
    let o := (Observation.bare s.fullname (String.ofList (instanceOf s listenType)) a s.port now)
      |>.withServiceType (String.ofList (tagOf listenType))
    (s.properties.foldl (fun o (k, v) => o.withAttribute k v) o)
      |>.withAttribute Observation.Key.discovery.text "broadcast"

end NodeWatch.Backend.Broadcast
