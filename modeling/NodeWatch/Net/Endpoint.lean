import NodeWatch.Net.Address.Text
import NodeWatch.Text.Blank

/-!
An address with a port, and the texts that name one.

A written endpoint is `a.b.c.d:port` or `[groups%scope]:port`. Configuration may also name a host,
which the machine then resolves.
-/

namespace NodeWatch.Net

open Text

/-- The scope is that of a link-local address of the second family, otherwise 0. -/
structure Endpoint where
  address : Address
  port : UInt16
  scope : UInt32 := 0
  deriving DecidableEq

namespace Endpoint

/-- Decimal digits without a sign up to the bound, with what follows them. -/
def readBounded (max : Nat) (s : List Char) : Option (Nat × List Char) :=
  (Address.readNumber 10 s.length s).filter (·.1 ≤ max)

/-- A percent sign and a scope; anything else reads as no scope. -/
def readScope (s : List Char) : Nat × List Char :=
  ((Address.readChar '%' s).bind (readBounded u32Max)).getD (0, s)

def ofV4Text? (s : List Char) : Option Endpoint := do
  let ((a, b, c, d), s) ← Address.readV4 s
  let s ← Address.readChar ':' s
  let (p, s) ← readBounded u16Max s
  if s = [] then some { address := .v4 a b c d, port := UInt16.ofNat p } else none

def ofV6Text? (s : List Char) : Option Endpoint := do
  let s ← Address.readChar '[' s
  let (a, s) ← Address.readV6 s
  let (scope, s) := readScope s
  let s ← Address.readChar ']' s
  let s ← Address.readChar ':' s
  let (p, s) ← readBounded u16Max s
  if s = [] then some ⟨a, UInt16.ofNat p, UInt32.ofNat scope⟩ else none

def ofText? (s : List Char) : Option Endpoint := ofV4Text? s <|> ofV6Text? s

def text (e : Endpoint) : List Char :=
  match e.address with
  | .v4 .. => e.address.text ++ ':' :: decimal e.port.toNat
  | .v6 _ =>
    let scope := if e.scope = 0 then [] else '%' :: decimal e.scope.toNat
    '[' :: e.address.text ++ scope ++ ']' :: ':' :: decimal e.port.toNat

def toString (e : Endpoint) : String := String.ofList e.text

end Endpoint

/-- Why a text names no endpoint. -/
inductive EndpointFault where
  | noPort
  | noHost
  | badPort
  | notV4
  | nulInHost
  | unresolved (reason : String)
  deriving DecidableEq

def EndpointFault.message : EndpointFault → String
  | noPort => "expected host:port"
  | noHost => "missing host"
  | badPort => "invalid port"
  | notV4 => "host did not resolve to an IPv4 address"
  | nulInHost => "file name contained an unexpected NUL byte"
  | unresolved reason => reason

/-- What a machine knows of host names: the addresses of each in some order, or why there are
none. -/
abbrev Resolver : Type := List Char → Except String (List Address)

/-- A machine that knows no host names. -/
def Resolver.empty : Resolver := fun _ => .error "failed to lookup address information"

/-- The endpoint of a host that is no literal address. -/
def Endpoint.resolved (resolve : Resolver) (host : List Char) (port : UInt16) :
    Except EndpointFault Endpoint :=
  if host.contains (Char.ofNat 0) then .error .nulInHost
  else
    match resolve host with
    | .error reason => .error (.unresolved reason)
    | .ok addresses =>
      match addresses.find? (·.isV4) with
      | some address => .ok { address, port }
      | none => .error .notV4

/-- The endpoint a trimmed text names. A host is an address of the first family, or has one. -/
def Endpoint.named (s : List Char) (resolve : Resolver := .empty) :
    Except EndpointFault Endpoint :=
  match Endpoint.ofText? s with
  | some e => .ok e
  | none =>
    match cutLast ':' s with
    | none => .error .noPort
    | some ([], _) => .error .noHost
    | some (host, p) =>
      match unsigned? u16Max p with
      | none => .error .badPort
      | some port =>
        match Address.ofV4Text? host, Address.ofV6Text? host with
        | some a, _ => .ok { address := a, port := UInt16.ofNat port }
        | none, some _ => .error .notV4
        | none, none => Endpoint.resolved resolve host (UInt16.ofNat port)

end NodeWatch.Net
