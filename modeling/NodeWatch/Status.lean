import NodeWatch.Metrics.Exposition
import NodeWatch.Roster.Json
import NodeWatch.Service
import NodeWatch.Status.Target

/-!
The state of the program over HTTP: whether it lives, whether the service runs, and its metrics.
-/

namespace NodeWatch.Status

def version : String := "0.1.0"

inductive Page where
  | live
  | ready
  | metrics
  deriving DecidableEq

def Page.path : Page → String
  | live => "/health/live"
  | ready => "/health/ready"
  | metrics => "/metrics"

def Page.ofPath? (s : String) : Option Page :=
  [Page.live, Page.ready, Page.metrics].find? (·.path = s)

inductive Body where
  | empty
  | json (v : Json)
  | text (lines : List String)

structure Response where
  code : Nat
  contentType : Option String := none
  allow : Option String := none
  body : Body := .empty

/-- A response with its headers and a body in JSON; `text` stands for a body of lines. -/
def Response.json (r : Response) (text : List String → Json) : Json :=
  let body : Json := match r.body with
    | .empty => .str ""
    | .json v => v
    | .text ls => text ls
  .obj [("status", .nat r.code), ("content_type", .optStr r.contentType),
    ("allow", .optStr r.allow), ("body", body)]

/-- What the answers tell about the clock. -/
structure Clock where
  uptimeSecs : Json
  timestamp : Json

/-- The state of a service in short. -/
def overview (s : Service) : List (String × Json) :=
  [("running", .bool s.isRunning), ("count", .nat s.roster.size), ("stats", s.roster.stats),
    ("observers", .nat s.workers.bus.size), ("backend", .str s.settings.backend),
    ("interval", .nat (s.settings.interval / s.settings.clock.second))]

def page (s : Service) (c : Clock) : Page → Response
  | .live => {
      code := 200
      contentType := some "application/json"
      body := .json (.obj [("status", .str "healthy"), ("version", .str version),
        ("uptime_secs", c.uptimeSecs), ("timestamp", c.timestamp)]) }
  | .ready => {
      code := if s.isRunning then 200 else 503
      contentType := some "application/json"
      body := .json (.obj [
        ("status", .str (if s.isRunning then "healthy" else "unhealthy")),
        ("running", .bool s.isRunning), ("backend", .str s.settings.backend),
        ("members", s.roster.stats), ("timestamp", c.timestamp)]) }
  | .metrics => {
      code := 200
      contentType := some "text/plain; version=0.0.4"
      body := .text s.metrics.lines }

/-- Pages are there to be read only. -/
def respond (s : Service) (c : Clock) (r : Request) : Response :=
  match Page.ofPath? r.path with
  | none => { code := 404 }
  | some p =>
    if r.method = "GET" then page s c p
    else if r.method = "HEAD" then { page s c p with body := .empty }
    else { code := 405, allow := some "GET,HEAD" }

end NodeWatch.Status
