import NodeWatch.Net.Address

/-!
The host addresses of a subnet: all but the first, which names the network, and the last, which
reaches every host.
-/

namespace NodeWatch.Net.Subnet

/-- The number of ones before the first zero of a mask. -/
def maskLength (mask : BitVec 32) : Nat :=
  ((List.range 32).takeWhile mask.getMsbD).length

/-- A run of neighbouring addresses. -/
structure HostRange where
  first : Nat
  count : Nat
  deriving DecidableEq

def HostRange.empty : HostRange := ⟨0, 0⟩

def HostRange.host (r : HostRange) (i : Nat) : Address := .ofBits (BitVec.ofNat 32 (r.first + i))

def HostRange.toList (r : HostRange) : List Address := (List.range r.count).map r.host

/-- The whole address space has no mask of thirty-two bits that a shift could make. -/
inductive Fault where
  | shiftOverflow
  deriving DecidableEq

def Fault.message : Fault → String
  | shiftOverflow => "attempt to shift left with overflow"

/-- The length used for larger subnets. -/
def narrowLength : Nat := 24

def hostCount (length : Nat) : Nat := Nat.pow 2 (32 - length) - 2

/-- The first hosts of the subnet that holds the address, at most `max`. A subnet with more hosts is
first narrowed to the block of 256 addresses around the given one. -/
def hosts (ip mask : BitVec 32) (max : Nat) : Except Fault HostRange :=
  let l := maskLength mask
  if 31 ≤ l then .ok .empty
  else
    let l := if max < hostCount l ∧ l < narrowLength then narrowLength else l
    if l = 0 then .error .shiftOverflow
    else
      let block := Nat.pow 2 (32 - l)
      .ok ⟨ip.toNat / block * block + 1, min max (hostCount l)⟩

end NodeWatch.Net.Subnet
