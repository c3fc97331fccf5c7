import NodeWatch.Announcement
import NodeWatch.Reconcile.Outcome
import NodeWatch.Service.Error
import NodeWatch.Webhook

/-!
Everything that can go wrong, under one roof: what it says, what lies behind it, whether the same
may succeed later, and whose business it is.
-/

namespace NodeWatch

inductive Error where
  | discovery (source : Service.Error)
  | backend (source : Backend.Error)
  | storage (source : Store.Error)
  | reconcile (source : Reconcile.Error)
  | announce (source : Announcement.Error)
  | notify (source : Webhook.Error)
  | config (source : Config.Fault)
  | inputOutput (message : String)
  | json (message : String)
  | http (message : String)
  | other (context : String) (source : Option String)
  deriving DecidableEq

namespace Error

def message : Error → String
  | discovery e => "Discovery error: " ++ e.message
  | backend e => "Backend error: " ++ e.message
  | storage e => "Storage error: " ++ e.message
  | reconcile e => "Reconcile error: " ++ e.message
  | announce e => "Announce error: " ++ e.message
  | notify e => "Notify error: " ++ e.message
  | config e => "Config error: " ++ e.message
  | inputOutput m => "I/O error: " ++ m
  | json m => "JSON error: " ++ m
  | http m => "HTTP error: " ++ m
  | other c _ => c

/-- What a failed look has behind it. -/
def backendChain (e : Backend.Error) : List String :=
  e.message :: match e with
    | .inputOutput m => [m]
    | _ => []

def storeChain (e : Store.Error) : List String :=
  e.message :: match e with
    | .database f => [f.message]
    | .inputOutput m => [m]
    | _ => []

/-- What lies behind an error, step by step. -/
def sources : Error → List String
  | discovery (.backend e) => (Service.Error.backend e).message :: backendChain e
  | discovery e => [e.message]
  | backend e => backendChain e
  | storage e => storeChain e
  | reconcile (.store a k e) => (Reconcile.Error.store a k e).message :: storeChain e
  | reconcile e => [e.message]
  | announce e => [e.message]
  | notify (.http m) => [(Webhook.Error.http m).message, m]
  | notify e => [e.message]
  | config e => [e.message]
  | inputOutput m | json m | http m => [m]
  | other _ s => s.toList

/-- A look that failed may succeed later, unless the settings or the machine are to blame. -/
def backendRecoverable : Backend.Error → Bool
  | .invalidAddress .. | .noInterface _ => false
  | _ => true

/-- The same may succeed later. -/
def isRecoverable : Error → Bool
  | discovery (.backend e) | backend e => backendRecoverable e
  | discovery _ => false
  | storage e => e.isTransient
  | reconcile e => e.isTransient
  | announce _ => true
  | notify e => e.isRetryable
  | config _ => false
  | inputOutput _ => true
  | json _ => false
  | http _ => true
  | other .. => false

inductive Category where
  | config
  | network
  | storage
  | discovery
  | other
  deriving DecidableEq

def Category.text : Category → String
  | config => "config"
  | network => "network"
  | storage => "storage"
  | discovery => "discovery"
  | other => "other"

def backendCategory (e : Backend.Error) : Category := if e.isConfig then .config else .network

def category : Error → Category
  | discovery (.backend e) | backend e => backendCategory e
  | discovery (.config _) | config _ => .config
  | discovery .alreadyRunning => .discovery
  | storage _ | reconcile _ | inputOutput _ => .storage
  | announce _ | notify _ | http _ => .network
  | json _ | other .. => .other

end Error

end NodeWatch
