import NodeWatch.Announcement
import NodeWatch.Cli.Help
import NodeWatch.Cli.Invocation
import NodeWatch.Cli.Run
import NodeWatch.Cli.Table
import NodeWatch.Config.Environment
import NodeWatch.Config.File
import NodeWatch.Json.Printer
import NodeWatch.Observation.Json
import NodeWatch.Store.Record.Json

/-!
The program from the command line on: what it writes and with which code it ends, given what it
finds on the machine.
-/

namespace NodeWatch.Cli

/-- What the program finds: variables, the bytes of files, the records under a path, what is
around, and whether it is to write a log. -/
structure Host where
  environment : Config.Environment
  file : String → Option (List UInt8)
  registry : String → Store.Sql.Place
  machine : Machine
  surroundings : Backend.Surroundings := {}
  now : Time.Instant
  logs : Bool := false

/-- How a command ends or goes on. -/
inductive Outcome where
  | finished (lines : List String)
  | failed (message : String)
  | misused
  | crashed
  | running (r : Running)
  | announcing (a : Announcement)

/-- The exit code of a command that ends, or is interrupted. A service at work that cannot be
stopped takes the program down, like one that fails when it is started. -/
def Outcome.code : Outcome → Nat
  | finished _ | announcing _ => 0
  | running r => if r.line.stopFails then 101 else 0
  | failed _ => 1
  | misused => 2
  | crashed => 101

/-- What an announcement that begins says. -/
def announcementLines (a : Announcement) : List String :=
  ["Announcing " ++ a.fullname,
    "  Host: " ++ a.host ++ ":" ++ String.ofList (Text.decimal a.port.toNat)]
    ++ a.properties.entries.map fun (k, v) => "  " ++ k ++ "=" ++ v

def Outcome.lines : Outcome → List String
  | finished ls => ls
  | announcing a => announcementLines a
  | failed _ | misused | crashed | running _ => []

/-- The first line that goes to the error stream. -/
def Outcome.complaint? : Outcome → Option String
  | failed m => some ("Error: " ++ String.ofList (m.toList.takeWhile (· ≠ '\n')))
  | _ => none

/-- A command whose steps may fail with a message. -/
abbrev Attempt (α : Type) : Type := Except String α

def orMessage {ε α : Type} (message : ε → String) : Except ε α → Attempt α
  | .ok a => .ok a
  | .error e => .error (message e)

def check (c : Config) : Attempt Unit :=
  match c.invalid? with
  | some f => .error f.message
  | none => .ok ()

/-- The settings in the file that was named, otherwise those of the variables. -/
def loadConfig (h : Host) (path : Option String) : Attempt Config :=
  match path with
  | some p => orMessage (·.message) (Config.fromFile p (h.file p))
  | none => orMessage (·.message) (Config.fromEnvironment h.environment)

def openRegistry (h : Host) (c : Config) : Attempt Store.Repository :=
  orMessage (fun _ => "Failed to open node registry at " ++ c.storage.path)
    (Store.Repository.ofPlace (h.registry c.storage.path))

def overridden (c : Config) (l : Looking) : Config :=
  { c with discovery := { c.discovery with
      method := l.method.getD c.discovery.method
      interface := l.interface <|> c.discovery.interface } }

def run (h : Host) (c : Config) (l : Looking) (announces : Bool) : Attempt Outcome := do
  let c := overridden c l
  check c
  let records ← openRegistry h c
  let (backend, service) ← orMessage (·.message)
    (Service.ofConfig c.discovery (Metrics.init {}) h.now)
  let webhook ← orMessage (·.message) (Webhook.ofConfig c.notify)
  let announcement ← if announces then
      let a := Announcement.ofMachine c.announce c.discovery h.machine
      match a.startFault? c.announce.reannounceInterval with
      | some e => .error e.message
      | none => .ok (some a)
    else .ok none
  let r ← orMessage (·.message) (Running.make backend service records c.storage.path webhook
    announcement (backend.look h.surroundings h.now) h.now)
  return if r.line.startFails h.logs then .crashed else .running r

def announce (h : Host) (c : Config) (name : Option String) (port : Option UInt16) :
    Attempt Outcome := do
  let c := { c with announce := { c.announce with
    instanceName := name <|> c.announce.instanceName
    port := port.getD c.announce.port } }
  check c
  let a := Announcement.ofMachine c.announce c.discovery h.machine
  match a.startFault? c.announce.reannounceInterval with
  | some e => .error e.message
  | none => return .announcing a

/-- Addresses in their order. -/
def sortedByAddress (os : List Observation) : List Observation :=
  os.mergeSort fun o p => !p.address.key.lex o.address.key Nat.blt

def scan (h : Host) (c : Config) (l : Looking) (json : Bool) : Attempt Outcome := do
  let c := overridden c l
  let (backend, service) ← orMessage (·.message) (Service.ofConfig c.discovery {} h.now)
  let (look, service) := service.beginLook false
  let (_, service) := service.endLook look (backend.look h.surroundings h.now) 0
  let os := sortedByAddress (service.roster.members.map (·.node))
  return .finished (if json then ((Json.arr (os.map (·.json))).pretty.splitOn "\n")
    else nodeTable backend.name os)

def nodes (h : Host) (c : Config) (json : Bool) : Attempt Outcome := do
  let r ← openRegistry h c
  let (answer, _) := r.step h.now .list
  let rs : List Store.Record ← orMessage (·.message) answer
  return .finished (if json then (Json.arr (rs.map (·.json))).pretty.splitOn "\n"
    else recordTable rs)

def perform (h : Host) (i : Invocation) : Attempt Outcome := do
  let c ← loadConfig h i.config
  match i.command with
  | .run l announces _ => run h c l announces
  | .announce name port => announce h c name port
  | .scan l _ json => scan h c l json
  | .nodes json => nodes h c json

/-- The whole program on its words. -/
def Outcome.ofWords (h : Host) (words : List String) : Outcome :=
  match Invocation.ofWords words with
  | .error .misused => .misused
  | .error .version => .finished [versionLine]
  | .error (.help verb) => .finished (helpLines verb)
  | .ok i => match perform h i with
    | .ok o => o
    | .error m => .failed m

end NodeWatch.Cli
