/-!
What can be wrong with a setting.
-/

namespace NodeWatch.Config

inductive Reason where
  | notPositive
  | timeoutRange
  | belowOne
  | serviceType (text : String)
  | blank
  | unknownMethod (name : String)
  | other (text : String)
  deriving DecidableEq

def Reason.text : Reason → String
  | notPositive => "must be greater than 0"
  | timeoutRange => "must be greater than 0 and shorter than the interval"
  | belowOne => "must be at least 1"
  | serviceType t => "'" ++ t ++ "' is not of the form _name._tcp or _name._udp"
  | blank => "must not be blank"
  | unknownMethod m => "unknown discovery method '" ++ m ++ "'"
  | other t => t

inductive Fault where
  | invalid (field : String) (reason : Reason)
  | missing (field : String)
  deriving DecidableEq

namespace Fault

def field : Fault → String
  | invalid f _ | missing f => f

def message : Fault → String
  | invalid f r => "Invalid value for '" ++ f ++ "': " ++ r.text
  | missing f => "Missing required field: " ++ f

end Fault

end NodeWatch.Config
