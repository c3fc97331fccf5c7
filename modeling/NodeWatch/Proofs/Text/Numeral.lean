import Mathlib.Algebra.Group.Nat.Defs
import Mathlib.Data.List.Basic
import Mathlib.Tactic.Common
import NodeWatch.Text.Numeral

/-!
Numbers that are written can be read back: the digits of a number are digits of the base, and their
value is the number.
-/

namespace NodeWatch.Text

variable {base n d width : Nat}

lemma hexValue?_digitChar (h : d < 16) : hexValue? d.digitChar = some d := by
  have : ∀ k : Fin 16, hexValue? k.val.digitChar = some k.val := by decide
  exact this ⟨d, h⟩

lemma digitValue?_digitChar (hb : base ≤ 16) (h : d < base) :
    digitValue? base d.digitChar = some d := by
  simp [digitValue?, hexValue?_digitChar (Nat.lt_of_lt_of_le h hb), h]

lemma valueFrom_append (acc : Nat) (s t : List Char) :
    valueFrom base acc (s ++ t) = valueFrom base (valueFrom base acc s) t := by
  induction s generalizing acc with
  | nil => rfl
  | cons c s ih => exact ih _

lemma valueFrom_zeros (k : Nat) : valueFrom base 0 (List.replicate k '0') = 0 := by
  induction k with
  | zero => rfl
  | succ k ih =>
    have h0 : hexValue? '0' = some 0 := by decide
    rw [List.replicate_succ, valueFrom, h0, Nat.mul_zero]
    exact ih

/-- Induction on the digits of a number, the last one first. -/
lemma digits_induction (hb : 1 < base) {motive : Nat → Prop} (single : ∀ d < base, motive d)
    (digit : ∀ m d, 0 < m → d < base → motive m → motive (base * m + d)) (n : Nat) :
    motive n := by
  induction n using Nat.strongRecOn with
  | ind n ih =>
    by_cases hn : n < base
    · exact single n hn
    · have hdiv : n / base < n := Nat.div_lt_self (by omega) hb
      have hpos : 0 < n / base := Nat.div_pos (by omega) (by omega)
      rw [← Nat.div_add_mod n base]
      exact digit _ _ hpos (Nat.mod_lt n (by omega)) (ih _ hdiv)

lemma digits_of_lt (h : d < base) : digits base d = [d.digitChar] :=
  Nat.toDigits_of_lt_base h

lemma digits_mul_add (hb : 1 < base) {m : Nat} (hm : 0 < m) (hd : d < base) :
    digits base (base * m + d) = digits base m ++ [d.digitChar] := by
  rw [← digits_of_lt hd]
  exact (Nat.toDigits_append_toDigits hb hm hd).symm

lemma valueFrom_digits (hb : 1 < base) (hb' : base ≤ 16) (n : Nat) :
    valueFrom base 0 (digits base n) = n := by
  induction n using digits_induction hb with
  | single d hd =>
    simp [digits_of_lt hd, valueFrom, hexValue?_digitChar (Nat.lt_of_lt_of_le hd hb')]
  | digit m d hm hd ih =>
    rw [digits_mul_add hb hm hd, valueFrom_append, ih]
    simp [valueFrom, hexValue?_digitChar (Nat.lt_of_lt_of_le hd hb')]

lemma eq_digitChar_of_mem_digits (hb : 1 < base) {c : Char}
    (hc : c ∈ digits base n) : ∃ d < base, c = d.digitChar := by
  induction n using digits_induction hb with
  | single d hd =>
    rw [digits_of_lt hd, List.mem_singleton] at hc
    exact ⟨d, hd, hc⟩
  | digit m d hm hd ih =>
    rw [digits_mul_add hb hm hd, List.mem_append, List.mem_singleton] at hc
    rcases hc with hc | hc
    · exact ih hc
    · exact ⟨d, hd, hc⟩

lemma digits_ne_nil : digits base n ≠ [] := Nat.toDigits_ne_nil

lemma length_digits_le (hb : 1 < base) (hw : 0 < width) (h : n < base ^ width) :
    (digits base n).length ≤ width :=
  (Nat.length_toDigits_le_iff hb hw).mpr h

/-- The digits of a positive number do not begin with a zero. -/
lemma head?_digits (hb : 1 < base) (hn : 0 < n) :
    (digits base n).head? ≠ some '0' := by
  induction n using digits_induction hb with
  | single d hd =>
    simp only [digits_of_lt hd, List.head?_cons, ne_eq, Option.some.injEq, Nat.digitChar_eq_zero]
    omega
  | digit m d hm hd ih =>
    rw [digits_mul_add hb hm hd, List.head?_append_of_ne_nil _ digits_ne_nil]
    exact ih hm

/-- Digits can be read in a greater base and written in it again. -/
lemma digits_valueFrom_digits {base' : Nat} (hb : 1 < base) (hbb : base ≤ base') (hb' : base' ≤ 16)
    (n : Nat) : digits base' (valueFrom base' 0 (digits base n)) = digits base n := by
  induction n using digits_induction hb with
  | single d hd =>
    have hvalue : hexValue? d.digitChar = some d := hexValue?_digitChar (by omega)
    simp [digits_of_lt hd, valueFrom, hvalue, digits_of_lt (Nat.lt_of_lt_of_le hd hbb)]
  | digit m d hm hd ih =>
    have hvalue : hexValue? d.digitChar = some d := hexValue?_digitChar (by omega)
    -- what does not begin with a zero is not zero
    have hpos : 0 < valueFrom base' 0 (digits base m) := by
      by_contra hzero
      rw [Nat.eq_zero_of_not_pos hzero, digits_of_lt (by omega)] at ih
      exact head?_digits hb hm (by rw [← ih]; rfl)
    rw [digits_mul_add hb hm hd, valueFrom_append, valueFrom, hvalue, Option.getD_some, valueFrom,
      digits_mul_add (by omega) hpos (by omega), ih]

/-! ### Decimal digits -/

lemma isDigit_digitChar (h : d < 10) : isDigit d.digitChar = true := by
  have : ∀ k : Fin 10, isDigit k.val.digitChar = true := by decide
  exact this ⟨d, h⟩

lemma isDigit_of_mem_decimal {c : Char} (hc : c ∈ decimal n) : isDigit c = true := by
  obtain ⟨d, hd, rfl⟩ := eq_digitChar_of_mem_digits (by omega) hc
  exact isDigit_digitChar hd

lemma isDigit_of_mem_padded {c : Char} (hc : c ∈ padded width n) : isDigit c = true := by
  rw [padded, List.mem_append, List.mem_replicate] at hc
  rcases hc with ⟨-, rfl⟩ | hc
  · rfl
  · exact isDigit_of_mem_decimal hc

lemma length_padded (hw : 0 < width) (h : n < 10 ^ width) : (padded width n).length = width := by
  have hle : (decimal n).length ≤ width := length_digits_le (by omega) hw h
  rw [padded, List.length_append, List.length_replicate]
  omega

lemma decimalValue_padded : decimalValue (padded width n) = n := by
  rw [decimalValue, padded, valueFrom_append, valueFrom_zeros]
  exact valueFrom_digits (by omega) (by omega) n

end NodeWatch.Text
