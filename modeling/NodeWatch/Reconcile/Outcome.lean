import NodeWatch.Event
import NodeWatch.Store.Error

/-!
What becomes of an event.
-/

namespace NodeWatch.Reconcile

inductive Outcome where
  | created
  | refreshed
  | updated
  | recovered
  | markedUnknown
  | ignored
  deriving DecidableEq

def Outcome.text : Outcome → String
  | created => "created"
  | refreshed => "refreshed"
  | updated => "updated"
  | recovered => "recovered"
  | markedUnknown => "marked_unknown"
  | ignored => "ignored"

inductive Error where
  | store (address : Net.Address) (kind : EventKind) (source : Store.Error)
  | nameExhausted (address : Net.Address)
  deriving DecidableEq

namespace Error

def address : Error → Net.Address
  | store a _ _ => a
  | nameExhausted a => a

def message : Error → String
  | store a k s =>
    "storage error reconciling " ++ k.text ++ " for " ++ a.toString ++ ": " ++ s.message
  | nameExhausted a => "no free node name for " ++ a.toString

def isTransient : Error → Bool
  | store _ _ s => s.isTransient
  | nameExhausted _ => false

end Error

end NodeWatch.Reconcile
