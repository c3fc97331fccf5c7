import NodeWatch.Config
import NodeWatch.Event.Json
import NodeWatch.Retry.Run

/-!
Telling a web server about events. Each event is posted as JSON, again and again if that may help.
-/

namespace NodeWatch

open Text

structure Webhook where
  url : String
  timeout : Time.Span
  token : Option String := none
  retry : Retry.Policy := {}

namespace Webhook

inductive Error where
  | http (message : String)
  | status (code : Nat) (body : String)
  | emptyUrl
  | notWebUrl
  | zeroTimeout
  | invalidConfig (message : String)
  deriving DecidableEq

namespace Error

def message : Error → String
  | http m => "HTTP request failed: " ++ m
  | status c b => "HTTP " ++ String.ofList (decimal c) ++ ": " ++ b
  | emptyUrl => "Invalid configuration: Webhook URL cannot be empty"
  | notWebUrl => "Invalid configuration: Webhook URL must start with http:// or https://"
  | zeroTimeout => "Invalid configuration: Timeout must be greater than 0"
  | invalidConfig m => "Invalid configuration: " ++ m

/-- Trying again may help: not against a server that finds fault with the request, unless it only
asks for patience. -/
def isRetryable : Error → Bool
  | http _ => true
  | status c _ => c = 429 || !(400 ≤ c && c < 500)
  | _ => false

end Error

def name : String := "webhook"

def make (url : String) (timeout : Time.Span) : Except Error Webhook :=
  if url = "" then .error .emptyUrl
  else if !Config.isWebUrl url then .error .notWebUrl
  else if timeout.nanos = 0 then .error .zeroTimeout
  else .ok { url, timeout }

/-- The webhook of the settings; none without an address. -/
def ofConfig (c : Config.Notify) : Except Error (Option Webhook) :=
  match c.webhookUrl.filter fun u => !isBlankText u with
  | none => .ok none
  | some u => do
    let w ← make (trimmed u) c.timeout
    return some { w with
      token := c.authToken, retry := { maxRetries := c.maxRetries.toNat } }

/-- What is sent about an event. -/
structure Request where
  url : String
  authorization : Option String
  contentType : String
  body : Json

/-- A token that can be sent: no control characters but tabs. -/
def isSendable (token : String) : Bool :=
  token.toList.all fun c => c = '\t' || (32 ≤ c.toNat && c.toNat ≠ 127)

/-- The request about an event; none if the token cannot be sent. -/
def request? (w : Webhook) (e : Event) (now : Time.Instant) : Option Request :=
  if w.token.all isSendable then
    some {
      url := w.url
      authorization := w.token.map ("Bearer " ++ ·)
      contentType := "application/json"
      body := e.payload now.toString }
  else none

/-- What comes of a request. -/
inductive Reply where
  | unreachable (message : String)
  | response (code : Nat) (body : String)

def Reply.outcome : Reply → Except Error Unit
  | unreachable m => .error (.http m)
  | response c b => if 200 ≤ c ∧ c < 300 then .ok () else .error (.status c b)

/-- All tries for one event, given what comes of each. -/
def deliver (w : Webhook) (replies : Nat → Reply) : Retry.Trace Error Unit :=
  Retry.run w.retry Error.isRetryable fun n => (replies n).outcome

end Webhook

end NodeWatch
