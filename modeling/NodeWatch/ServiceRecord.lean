import NodeWatch.Distinct
import NodeWatch.Net.Address.Text
import NodeWatch.Text.Blank
import NodeWatch.Text.Lower
import NodeWatch.Text.Split

/-!
Service records, by which nodes announce themselves on the local network: where a service of a type
is to be found, with a list of properties.
-/

namespace NodeWatch

open Text

/-- Addresses are a set, here in the order in which they happen to be enumerated. If `auto`, the
announcing machine fills in its own. -/
structure ServiceRecord where
  typeDomain : String
  subtype : Option String
  fullname : String
  host : String
  addresses : List Net.Address
  auto : Bool := false
  port : UInt16
  properties : List (String × String)
  deriving DecidableEq

namespace ServiceRecord

inductive Fault where
  | address
  | keyNotAscii (key : String)
  | keyHasEquals (key : String)
  deriving DecidableEq

def Fault.message : Fault → String
  | address => "parsing of ip addr failed, reason: invalid IP address syntax"
  | keyNotAscii k => "TXT property key " ++ k ++ " is not ASCII"
  | keyHasEquals k => "TXT property key " ++ k ++ " contains '='"

/-- What follows the last occurrence of a text. -/
def afterLast? (p : List Char) : List Char → Option (List Char)
  | [] => none
  | c :: r =>
    match afterLast? p r with
    | some t => some t
    | none => afterStart p (c :: r)

/-- A type without the subtype in front of it. -/
def mainType (type : String) : String :=
  ((afterLast? "._sub.".toList type.toList).map String.ofList).getD type

def subtype? (type : String) : Option String :=
  if (afterLast? "._sub.".toList type.toList).isSome then some type else none

/-- A host that ends with the local domain twice has it once. -/
def hostName (host : String) : String :=
  if (beforeEnd ".local.local.".toList host.toList).isSome then
    String.ofList (host.toList.take (host.length - "local.".length))
  else host

/-- Addresses with commas between them and blanks around them. -/
def addressesOf (s : String) : Except Fault (List Net.Address) :=
  if s = "" then .ok []
  else match (split ',' s.toList).mapM fun t => Net.Address.ofText? (trim t) with
    | some as => .ok (distinct as)
    | none => .error .address

/-- The properties without those whose key differs from an earlier one in case only. -/
def firstOfKeys : List (String × String) → List (String × String)
  | [] => []
  | p :: r => p :: (firstOfKeys r).filter fun q => lower q.1.toList ≠ lower p.1.toList

/-- The first key that is no key, in the order of the properties. -/
def keyFault? (ps : List (String × String)) : Option Fault :=
  ps.findSome? fun (k, _) =>
    if !k.toList.all (·.toNat < 128) then some (.keyNotAscii k)
    else if k.toList.contains '=' then some (.keyHasEquals k)
    else none

/-- The record of an instance of a type. -/
def named (type instanceName host : String) (addresses : List Net.Address) (port : UInt16)
    (properties : List (String × String)) : Except Fault ServiceRecord :=
  match keyFault? properties with
  | some f => .error f
  | none => .ok {
      typeDomain := mainType type
      subtype := subtype? type
      fullname := instanceName ++ "." ++ mainType type
      host := hostName host
      addresses
      port
      properties }

/-- The value of a property; case does not count. -/
def property? (s : ServiceRecord) (key : String) : Option String :=
  (s.properties.find? fun p => lower p.1.toList = lower key.toList).map (·.2)

end ServiceRecord

end NodeWatch
