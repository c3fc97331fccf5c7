/-!
Internet addresses of both families, and their order.
-/

namespace NodeWatch.Net

/-- Four octets, or eight groups of sixteen bits. -/
inductive Address where
  | v4 (a b c d : UInt8)
  | v6 (groups : Vector UInt16 8)
  deriving DecidableEq

namespace Address

instance : Inhabited Address := ⟨.v4 0 0 0 0⟩

/-- The address with the given groups, if there are eight. -/
def ofGroups? (gs : List UInt16) : Option Address :=
  if h : gs.length = 8 then some (.v6 ⟨gs.toArray, by simp [h]⟩) else none

def isV4 : Address → Bool
  | v4 .. => true
  | v6 _ => false

/-- Octets as one number of thirty-two bits. -/
def ofBits (n : BitVec 32) : Address :=
  let o (i : Nat) := UInt8.ofNat (n.toNat / Nat.pow 256 i)
  .v4 (o 3) (o 2) (o 1) (o 0)

def bits (a b c d : UInt8) : BitVec 32 :=
  BitVec.ofNat 32 (((a.toNat * 256 + b.toNat) * 256 + c.toNat) * 256 + d.toNat)

/-- The numbers by which addresses are ordered: family first, then from the left. -/
def key : Address → List Nat
  | v4 a b c d => [0, a.toNat, b.toNat, c.toNat, d.toNat]
  | v6 gs => 1 :: gs.toList.map UInt16.toNat

theorem key_injective {x y : Address} (h : x.key = y.key) : x = y := by
  cases x with
  | v4 a b c d =>
    cases y with
    | v4 a' b' c' d' =>
      simp only [key, List.cons.injEq, UInt8.toNat_inj] at h
      simp_all
    | v6 gs => simp [key] at h
  | v6 gs =>
    cases y with
    | v4 a b c d => simp [key] at h
    | v6 hs =>
      simp only [key, List.cons.injEq, true_and] at h
      have : gs.toList = hs.toList :=
        (List.map_inj_right fun _ _ => UInt16.toNat_inj.1).1 h
      rw [Vector.toList_inj.1 this]

end Address

end NodeWatch.Net
