import Mathlib.Algebra.Group.Nat.Defs
import Mathlib.Data.List.Pairwise
import Mathlib.Tactic.Common
import NodeWatch.Net.Subnet

/-!
The hosts of a subnet.

A host shares the leading bits of the given address, and its other bits are neither all zeros nor
all ones. In numbers, the hosts are what lies strictly inside a block whose size is a power of two.
The main statement says which of them are told up to a limit, and for which masks and limits none
are.
-/

namespace NodeWatch.Net

/-! ### The order of addresses -/

namespace Address

variable {a b : BitVec 32}

/-- A number of thirty-two bits in base 256. -/
lemma eq_octets {n : Nat} (h : n < 4294967296) :
    n = ((n / 16777216 % 256 * 256 + n / 65536 % 256) * 256 + n / 256 % 256) * 256 + n % 256 := by
  omega

lemma key_ofBits (a : BitVec 32) : (ofBits a).key =
    [0, a.toNat / 16777216 % 256, a.toNat / 65536 % 256, a.toNat / 256 % 256, a.toNat % 256] := by
  simp [ofBits, key, UInt8.toNat_ofNat']

/-- Addresses are ordered as their numbers. -/
lemma key_ofBits_lt (h : a < b) : (ofBits a).key < (ofBits b).key := by
  have hlt := BitVec.lt_def.mp h
  rw [eq_octets a.isLt, eq_octets b.isLt] at hlt
  have hbyte (n : Nat) : n % 256 < 256 := Nat.mod_lt n (by decide)
  have ha₂ := hbyte (a.toNat / 65536)
  have ha₁ := hbyte (a.toNat / 256)
  have ha₀ := hbyte a.toNat
  rw [key_ofBits, key_ofBits]
  simp only [List.cons_lt_cons_iff, List.not_lt_nil, Nat.lt_irrefl, false_or, true_and, and_false,
    or_false]
  generalize a.toNat / 16777216 % 256 = a₃, a.toNat / 65536 % 256 = a₂,
    a.toNat / 256 % 256 = a₁, a.toNat % 256 = a₀, b.toNat / 16777216 % 256 = b₃ at *
  omega

end Address

namespace Subnet

variable {ip mask a : BitVec 32} {l i k n m : Nat}

/-! ### Masks -/

/-- How many ones a mask begins with. -/
structure LeadingOnes (mask : BitVec 32) (l : Nat) : Prop where
  le : l ≤ 32
  ones : ∀ i < l, mask.getMsbD i = true
  zero : l < 32 → mask.getMsbD l = false

lemma maskLength_le (mask : BitVec 32) : maskLength mask ≤ 32 := by
  have hle := (List.takeWhile_prefix mask.getMsbD (l := List.range 32)).length_le
  rwa [List.length_range] at hle

/-- The length of a mask is the place of its first zero. -/
lemma maskLength_eq (mask : BitVec 32) :
    maskLength mask = (List.range 32).findIdx fun i => !mask.getMsbD i := by
  rw [maskLength, List.takeWhile_eq_take_findIdx_not, List.length_take,
    Nat.min_eq_left List.findIdx_le_length]

lemma leadingOnes_maskLength (mask : BitVec 32) : LeadingOnes mask (maskLength mask) := by
  refine ⟨maskLength_le mask, fun i hi => ?_, fun hlt => ?_⟩
  · rw [maskLength_eq] at hi
    have hone := List.not_of_lt_findIdx hi
    simpa using hone
  · rw [maskLength_eq] at hlt ⊢
    have hzero := List.findIdx_getElem (w := by rwa [List.length_range])
    simpa using hzero

/-! ### Bits and blocks -/

lemma getMsbD_eq_testBit (h : i < 32) : a.getMsbD i = a.toNat.testBit (31 - i) := by
  rw [BitVec.getMsbD, BitVec.getLsbD]
  simp [h]

/-- Addresses with the same first bits lie in the same block. -/
lemma shares_iff (hl : l ≤ 32) : (∀ i < l, a.getMsbD i = ip.getMsbD i) ↔
    a.toNat / 2 ^ (32 - l) = ip.toNat / 2 ^ (32 - l) := by
  constructor
  · intro h
    apply Nat.eq_of_testBit_eq
    intro j
    rw [Nat.testBit_div_two_pow, Nat.testBit_div_two_pow]
    by_cases hj : j < l
    · have hbit := h (l - 1 - j) (by omega)
      rw [getMsbD_eq_testBit (by omega), getMsbD_eq_testBit (by omega)] at hbit
      rwa [show 31 - (l - 1 - j) = j + (32 - l) by omega] at hbit
    · have hle : 32 ≤ j + (32 - l) := by omega
      rw [← BitVec.getLsbD, ← BitVec.getLsbD, BitVec.getLsbD_of_ge _ _ hle,
        BitVec.getLsbD_of_ge _ _ hle]
  · intro h i hi
    have hbit := congrArg (·.testBit (l - 1 - i)) h
    simp only [Nat.testBit_div_two_pow] at hbit
    rw [getMsbD_eq_testBit (by omega), getMsbD_eq_testBit (by omega)]
    rwa [show l - 1 - i + (32 - l) = 31 - i by omega] at hbit

/-- The other bits, counted from the right. -/
lemma rest_iff {v : Bool} (hl : l ≤ 32) : (∀ i, l ≤ i → i < 32 → a.getMsbD i = v) ↔
    ∀ j < 32 - l, a.toNat.testBit j = v := by
  constructor
  · intro h j hj
    have hbit := h (31 - j) (by omega) (by omega)
    rwa [getMsbD_eq_testBit (by omega), show 31 - (31 - j) = j by omega] at hbit
  · intro h i hi hlt
    rw [getMsbD_eq_testBit hlt]
    exact h _ (by omega)

/-- Numbers with the same last bits have the same place in their blocks. -/
lemma testBit_iff_mod {x y : Nat} : (∀ j < k, x.testBit j = y.testBit j) ↔
    x % 2 ^ k = y % 2 ^ k := by
  constructor
  · intro h
    apply Nat.eq_of_testBit_eq
    intro j
    rw [Nat.testBit_mod_two_pow, Nat.testBit_mod_two_pow]
    by_cases hj : j < k
    · rw [h j hj]
    · simp [hj]
  · intro h j hj
    have hbit := congrArg (·.testBit j) h
    simpa [Nat.testBit_mod_two_pow, hj] using hbit

/-- The address that names the network is the first of its block. -/
lemma zeros_iff (hl : l ≤ 32) : (∀ i, l ≤ i → i < 32 → a.getMsbD i = false) ↔
    a.toNat % 2 ^ (32 - l) = 0 := by
  have hlast := testBit_iff_mod (x := a.toNat) (y := 0) (k := 32 - l)
  simp only [Nat.zero_testBit, Nat.zero_mod] at hlast
  rw [rest_iff hl, hlast]

/-- The address that reaches every host is the last of its block. -/
lemma ones_iff (hl : l ≤ 32) : (∀ i, l ≤ i → i < 32 → a.getMsbD i = true) ↔
    a.toNat % 2 ^ (32 - l) = 2 ^ (32 - l) - 1 := by
  have hones : ∀ j < 32 - l, (2 ^ (32 - l) - 1).testBit j = true := by
    intro j hj
    rw [Nat.testBit_two_pow_sub_one, decide_eq_true hj]
  have hself : (2 ^ (32 - l) - 1) % 2 ^ (32 - l) = 2 ^ (32 - l) - 1 :=
    Nat.mod_eq_of_lt (Nat.sub_one_lt_of_lt (Nat.two_pow_pos (32 - l)))
  rw [rest_iff hl, ← hself, ← testBit_iff_mod]
  exact forall₂_congr fun j hj => by rw [hones j hj]

/-- What is neither the first nor the last of a block. -/
lemma inside_block_iff {block x : Nat} (hblock : 0 < block) :
    (x / block = n ∧ x % block ≠ 0 ∧ x % block ≠ block - 1) ↔
      n * block + 1 ≤ x ∧ x < n * block + 1 + (block - 2) := by
  have hmod := Nat.mod_lt x hblock
  have hx := Nat.div_add_mod' x block
  constructor
  · rintro ⟨rfl, hzero, hlast⟩
    omega
  · rintro ⟨hfirst, hend⟩
    have hdiv : x / block = n := Nat.div_eq_of_lt_le (by omega) (by rw [Nat.succ_mul]; omega)
    rw [hdiv] at hx
    exact ⟨hdiv, by omega, by omega⟩

/-! ### Hosts -/

/-- A host of the subnet of some length around an address: it shares that many first bits with it,
and is neither the address of the network nor the one that reaches every host. -/
structure IsHost (length : Nat) (ip a : BitVec 32) : Prop where
  shares : ∀ i < length, a.getMsbD i = ip.getMsbD i
  not_network : ¬ ∀ i, length ≤ i → i < 32 → a.getMsbD i = false
  not_broadcast : ¬ ∀ i, length ≤ i → i < 32 → a.getMsbD i = true

/-- All hosts of the subnet around an address, in ascending order. -/
structure Lists (length : Nat) (ip : BitVec 32) (all : List Address) : Prop where
  ascending : all.Pairwise fun x y => x.key < y.key
  mem_iff : ∀ x, x ∈ all ↔ ∃ a, IsHost length ip a ∧ x = .ofBits a

/-- The inside of the block of an address. -/
def around (length : Nat) (ip : BitVec 32) : HostRange :=
  ⟨ip.toNat / Nat.pow 2 (32 - length) * Nat.pow 2 (32 - length) + 1, hostCount length⟩

lemma isHost_iff (hl : l ≤ 32) : IsHost l ip a ↔
    (around l ip).first ≤ a.toNat ∧ a.toNat < (around l ip).first + (around l ip).count := by
  have hinside := inside_block_iff (n := ip.toNat / 2 ^ (32 - l)) (x := a.toNat)
    (Nat.two_pow_pos (32 - l))
  rw [← shares_iff hl, Ne, ← zeros_iff hl, Ne, ← ones_iff hl] at hinside
  refine Iff.trans ?_ hinside
  exact ⟨fun h => ⟨h.shares, h.not_network, h.not_broadcast⟩, fun h => ⟨h.1, h.2.1, h.2.2⟩⟩

/-- No block goes beyond the last address. -/
lemma around_le (hl : l ≤ 32) (ip : BitVec 32) :
    (around l ip).first + (around l ip).count ≤ 4294967296 := by
  have hip : ip.toNat < 4294967296 := ip.isLt
  have hsplit : 2 ^ l * 2 ^ (32 - l) = 4294967296 := by
    rw [← Nat.pow_add, Nat.add_sub_cancel' hl]
  have hlt : ip.toNat / 2 ^ (32 - l) < 2 ^ l := by
    apply Nat.div_lt_of_lt_mul
    rwa [Nat.mul_comm, hsplit]
  have hend := Nat.mul_le_mul_right (2 ^ (32 - l)) hlt
  rw [hsplit, Nat.succ_mul] at hend
  have hblock := Nat.two_pow_pos (32 - l)
  show ip.toNat / 2 ^ (32 - l) * 2 ^ (32 - l) + 1 + (2 ^ (32 - l) - 2) ≤ 4294967296
  omega

namespace HostRange

@[simp] lemma length_toList (r : HostRange) : r.toList.length = r.count := by
  simp [toList]

lemma toList_min (first : Nat) : toList ⟨first, min m n⟩ = (toList ⟨first, n⟩).take m := by
  rw [toList, toList, ← List.map_take, List.take_range]
  rfl

/-- The hosts of a range that ends in time are numbered one after the other. -/
lemma toNat_ofNat_add {r : HostRange} (h : r.first + r.count ≤ 4294967296) (hi : i < r.count) :
    (BitVec.ofNat 32 (r.first + i)).toNat = r.first + i := by
  rw [BitVec.toNat_ofNat]
  exact Nat.mod_eq_of_lt (by omega)

end HostRange

lemma lists_around (hl : l ≤ 32) (ip : BitVec 32) : Lists l ip (around l ip).toList := by
  have hend := around_le hl ip
  constructor
  · rw [HostRange.toList, List.pairwise_map, List.pairwise_iff_getElem]
    intro i j hi hj hij
    rw [List.length_range] at hi hj
    rw [List.getElem_range, List.getElem_range]
    apply Address.key_ofBits_lt
    rw [BitVec.lt_def, HostRange.toNat_ofNat_add hend hi, HostRange.toNat_ofNat_add hend hj]
    omega
  · intro x
    rw [HostRange.toList, List.mem_map]
    constructor
    · rintro ⟨i, hi, rfl⟩
      rw [List.mem_range] at hi
      refine ⟨_, (isHost_iff hl).mpr ?_, rfl⟩
      rw [HostRange.toNat_ofNat_add hend hi]
      omega
    · rintro ⟨a, ha, rfl⟩
      obtain ⟨hfirst, hlast⟩ := (isHost_iff hl).mp ha
      refine ⟨a.toNat - (around l ip).first, List.mem_range.mpr (by omega), ?_⟩
      rw [HostRange.host, Nat.add_sub_cancel' hfirst, BitVec.ofNat_toNat, BitVec.setWidth_eq]

/-! ### What is told -/

/-- The inside of a block, up to a limit. -/
lemma hosts_eq (ip mask : BitVec 32) (max : Nat) : hosts ip mask max =
    if 31 ≤ maskLength mask then .ok .empty
    else if max < hostCount (maskLength mask) ∧ maskLength mask < narrowLength then
      .ok ⟨(around narrowLength ip).first, min max (around narrowLength ip).count⟩
    else if maskLength mask = 0 then .error .shiftOverflow
    else .ok
      ⟨(around (maskLength mask) ip).first, min max (around (maskLength mask) ip).count⟩ := by
  unfold hosts
  simp only
  by_cases hnarrow : max < hostCount (maskLength mask) ∧ maskLength mask < narrowLength
  · rw [if_pos hnarrow, if_pos hnarrow, if_neg (show ¬ narrowLength = 0 by decide)]
    rfl
  · rw [if_neg hnarrow, if_neg hnarrow]
    rfl

/-- Only the whole address space has no block, and only if all of its hosts are asked for. -/
lemma hosts_eq_error_iff {max : Nat} : hosts ip mask max = .error .shiftOverflow ↔
    maskLength mask = 0 ∧ hostCount (maskLength mask) ≤ max := by
  rw [hosts_eq]
  constructor
  · intro h
    split_ifs at h with hpoint hnarrow hzero
    have hlt : maskLength mask < narrowLength := hzero ▸ by decide
    exact ⟨hzero, Nat.le_of_not_lt fun hmax => hnarrow ⟨hmax, hlt⟩⟩
  · rintro ⟨hzero, hmax⟩
    rw [if_neg (by omega), if_neg (fun h => Nat.not_lt.mpr hmax h.1), if_pos hzero]

lemma not_lt_narrowLength (h : 31 ≤ l) : ¬ l < narrowLength := by
  unfold narrowLength
  omega

/-- In a block of at most two addresses none lies inside. -/
lemma toList_around_of_point (h : 31 ≤ l) (hl : l ≤ 32) (ip : BitVec 32) :
    (around l ip).toList = [] := by
  rw [← List.length_eq_zero_iff, HostRange.length_toList]
  obtain rfl | rfl : l = 31 ∨ l = 32 := by omega
  · rfl
  · rfl

lemma hosts_eq_ok (ip : BitVec 32) {max : Nat}
    (h : ¬ (maskLength mask = 0 ∧ hostCount (maskLength mask) ≤ max)) :
    ∃ r, hosts ip mask max = .ok r ∧ r.toList =
      (if maskLength mask < narrowLength ∧ max < hostCount (maskLength mask) then
        (around narrowLength ip).toList
      else (around (maskLength mask) ip).toList).take max := by
  rw [hosts_eq]
  by_cases hpoint : 31 ≤ maskLength mask
  · rw [if_pos hpoint, if_neg fun hnarrow => not_lt_narrowLength hpoint hnarrow.1,
      toList_around_of_point hpoint (maskLength_le mask), List.take_nil]
    exact ⟨_, rfl, rfl⟩
  · rw [if_neg hpoint]
    by_cases hnarrow : max < hostCount (maskLength mask) ∧ maskLength mask < narrowLength
    · rw [if_pos hnarrow, if_pos hnarrow.symm]
      exact ⟨_, rfl, HostRange.toList_min _⟩
    · have hblock : maskLength mask ≠ 0 := fun hzero => h ⟨hzero,
        Nat.le_of_not_lt fun hmax => hnarrow ⟨hmax, hzero ▸ by decide⟩⟩
      rw [if_neg hnarrow, if_neg hblock, if_neg fun hflipped => hnarrow hflipped.symm]
      exact ⟨_, rfl, HostRange.toList_min _⟩

/-- **Which hosts of a subnet are told.** In ascending order the first ones up to a limit, of the
whole subnet, or of the block of 256 addresses around the given one if the subnet is larger and has
more hosts than the limit. Only if a mask has no ones and the limit reaches the number of all hosts,
none can be told. -/
theorem hosts_of_subnet (ip mask : BitVec 32) (max : Nat) :
    ∃ length all near, LeadingOnes mask length ∧ Lists length ip all ∧ Lists 24 ip near ∧
      all.length = 2 ^ (32 - length) - 2 ∧
      (hosts ip mask max = .error .shiftOverflow ↔ length = 0 ∧ all.length ≤ max) ∧
      (¬ (length = 0 ∧ all.length ≤ max) → ∃ r, hosts ip mask max = .ok r ∧
        r.toList = (if length < 24 ∧ max < all.length then near else all).take max ∧
        (31 ≤ length → r.toList = [])) := by
  have hlength := leadingOnes_maskLength mask
  have hcount : (around (maskLength mask) ip).toList.length = hostCount (maskLength mask) :=
    HostRange.length_toList _
  refine ⟨maskLength mask, _, _, hlength, lists_around hlength.le ip, lists_around (by decide) ip,
    hcount, ?_, fun hhosts => ?_⟩
  · rw [hcount]
    exact hosts_eq_error_iff
  · rw [hcount] at hhosts ⊢
    obtain ⟨r, hr, htold⟩ := hosts_eq_ok ip hhosts
    refine ⟨r, hr, htold, fun hpoint => ?_⟩
    rw [htold, if_neg fun hnarrow => not_lt_narrowLength hpoint hnarrow.1,
      toList_around_of_point hpoint hlength.le, List.take_nil]

/-- **The hosts of the whole address space are not told** when all of them are asked for: there is
no block to shift a mask to. -/
theorem no_hosts_of_whole_space :
    LeadingOnes 0 0 ∧ hostCount 0 = 4294967294 ∧
      hosts (Address.bits 10 0 0 1) 0 4294967294 = .error .shiftOverflow :=
  ⟨⟨by decide, by decide, by decide⟩, by decide, by decide⟩

end Subnet

end NodeWatch.Net
