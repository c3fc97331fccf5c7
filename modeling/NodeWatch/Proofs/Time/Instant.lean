import Mathlib.Algebra.Group.Nat.Defs
import NodeWatch.Proofs.Text.Numeral
import NodeWatch.Proofs.Time.Calendar
import NodeWatch.Time.Instant.Text

/-!
Instants that are written as text are read back, if their years have four digits.
-/

namespace NodeWatch.Time.Instant

open Text

/-- The years that the strict form of an instant can tell. -/
def HasPlainYear (t : Instant) : Prop := 0 ≤ t.date.year ∧ t.date.year ≤ 9999

instance (t : Instant) : Decidable t.HasPlainYear := inferInstanceAs (Decidable (_ ∧ _))

lemma padded_two {n : Nat} (h : n < 100) : ∃ a b, padded 2 n = [a, b] ∧
    [a, b].all isDigit = true ∧ decimalValue [a, b] = n := by
  have hlen : (padded 2 n).length = 2 := length_padded (by omega) h
  obtain ⟨a, b, hab⟩ := List.length_eq_two.mp hlen
  refine ⟨a, b, hab, ?_, ?_⟩
  · rw [← hab, List.all_eq_true]
    exact fun c hc => isDigit_of_mem_padded hc
  · rw [← hab]
    exact decimalValue_padded

lemma padded_four {n : Nat} (h : n < 10000) : ∃ a b c d, padded 4 n = [a, b, c, d] ∧
    [a, b, c, d].all isDigit = true ∧ decimalValue [a, b, c, d] = n := by
  have hlen : (padded 4 n).length = 4 := length_padded (by omega) h
  match hp : padded 4 n, hlen with
  | [a, b, c, d], _ =>
    refine ⟨a, b, c, d, rfl, ?_, ?_⟩
    · rw [← hp, List.all_eq_true]
      exact fun c hc => isDigit_of_mem_padded hc
    · rw [← hp]
      exact decimalValue_padded

lemma readFraction_padded {k n : Nat} (hk : 0 < k) (hk' : k ≤ 9) (hn : n < 10 ^ k)
    {c : Char} (hc : isDigit c = false) (u : List Char) :
    readFraction (padded k n ++ c :: u) = .ok (n * 10 ^ (9 - k), c :: u) := by
  have hlen := length_padded hk hn
  have htake : (padded k n ++ c :: u).takeWhile isDigit = padded k n := by
    rw [List.takeWhile_append_of_pos fun d hd => isDigit_of_mem_padded hd]
    simp [hc]
  have hne : padded k n ≠ [] := fun h => by rw [h] at hlen; simp at hlen; omega
  have hnine : (padded k n).take 9 = padded k n := List.take_of_length_le (by omega)
  simp only [readFraction, htake, hnine, hlen, decimalValue_padded, List.append_eq_nil_iff, hne,
    false_and, if_false]
  rw [List.drop_left' hlen, Nat.pow_eq]

/-- The fraction of a second is left out if there is none, and is read back if there is one. -/
lemma fraction_read {n : Nat} (hn : n < 1000000000) : (n = 0 ∧ fractionText n = []) ∨
    ∃ ds, fractionText n = '.' :: ds ∧
      ∀ u, readFraction (ds ++ '+' :: u) = .ok (n, '+' :: u) := by
  have hplus : isDigit '+' = false := rfl
  unfold fractionText
  by_cases h0 : n = 0
  · exact .inl ⟨h0, if_pos h0⟩
  · rw [if_neg h0]
    refine .inr ?_
    by_cases h6 : n % 1000000 = 0
    · refine ⟨_, if_pos h6, fun u => ?_⟩
      rw [readFraction_padded (by omega) (by omega) (by omega) hplus]
      congr 2
      omega
    · rw [if_neg h6]
      by_cases h3 : n % 1000 = 0
      · refine ⟨_, if_pos h3, fun u => ?_⟩
        rw [readFraction_padded (by omega) (by omega) (by omega) hplus]
        congr 2
        omega
      · refine ⟨_, if_neg h3, fun u => ?_⟩
        rw [readFraction_padded (by omega) (by omega) (by omega) hplus]
        simp

lemma readOffset_zero : readOffset colon ['+', '0', '0', ':', '0', '0'] = .ok (0, []) := by
  decide

lemma of?_self (t : Instant) : of? t.seconds t.nanos = some t := dif_pos t.nanos_lt

/-- Date, clock and nanoseconds make up the instant again. -/
lemma ofFields_date (t : Instant) (h : t.HasPlainYear) :
    ofFields t.date (t.secondOfDay / 3600) (t.secondOfDay / 60 % 60)
      (t.secondOfDay % 60 + if t.nanos < 1000000000 then 0 else 1) (t.nanos % 1000000000) 0 =
      .ok t := by
  have hvalid : t.date.isValid = true := Date.isValid_ofDays _
  have hdays : t.date.toDays = t.seconds / 86400 := Date.toDays_ofDays _
  have hsec : t.secondOfDay = (t.seconds % 86400).toNat := rfl
  obtain ⟨hlow, hhigh⟩ := h
  have hrange : minYear ≤ t.date.year ∧ t.date.year ≤ maxYear := by
    unfold minYear maxYear
    omega
  have hin : t.inRange = true := by simp [inRange, hrange]
  have hlimits : ¬ (¬ t.date.isValid = true ∨ 23 < t.secondOfDay / 3600 ∨
      59 < t.secondOfDay / 60 % 60 ∨
      60 < t.secondOfDay % 60 + if t.nanos < 1000000000 then 0 else 1) := by
    rintro (hv | hh | hm | hs)
    · exact hv hvalid
    · omega
    · omega
    · split at hs <;> omega
  have hclock : ∀ s : Nat, t.secondOfDay % 60 = s →
      t.date.toDays * 86400 + (((t.secondOfDay / 3600 : Nat) : Int) * 3600 +
        ((t.secondOfDay / 60 % 60 : Nat) : Int) * 60 + (s : Int)) - 0 = t.seconds := by
    intro s hs
    rw [hdays]
    omega
  unfold ofFields
  rw [if_neg hlimits]
  by_cases hleap : t.nanos < 1000000000
  · have hs : ¬ t.secondOfDay % 60 + 0 = 60 := by omega
    have hn : t.nanos % 1000000000 + 0 = t.nanos := by omega
    simp only [hleap, if_true, hs, if_false]
    rw [hclock (t.secondOfDay % 60 + 0) rfl, hn, of?_self]
    simp [hrange, hin]
  · -- a leap second is the sixtieth of its minute
    have hn59 : t.nanos < 2000000000 ∧ t.seconds % 60 = 59 := t.nanos_lt.resolve_left hleap
    have hs : t.secondOfDay % 60 + 1 = 60 := by omega
    have hn : t.nanos % 1000000000 + 1000000000 = t.nanos := by omega
    simp only [hleap, if_false, hs, if_true]
    rw [hclock 59 (by omega), hn, of?_self]
    simp [hrange, hin]

/-- **A written instant is read back.** -/
theorem read_offsetText {t : Instant} (h : t.HasPlainYear) : read t.offsetText = .ok t := by
  have hvalid : t.date.isValid = true := Date.isValid_ofDays _
  have hmonth : t.date.month < 100 ∧ t.date.day < 100 := by
    simp only [Date.isValid, Bool.and_eq_true, decide_eq_true_eq] at hvalid
    have hlen : Date.monthLength t.date.year t.date.month ≤ 31 := by
      unfold Date.monthLength
      repeat' split
      all_goals omega
    omega
  have hsec : t.secondOfDay < 86400 := by
    have : t.secondOfDay = (t.seconds % 86400).toNat := rfl
    omega
  obtain ⟨y1, y2, y3, y4, hy, hyd, hyv⟩ := padded_four (by
    have := h.1; have := h.2; omega : t.date.year.toNat < 10000)
  obtain ⟨m1, m2, hm, hmd, hmv⟩ := padded_two hmonth.1
  obtain ⟨d1, d2, hd, hdd, hdv⟩ := padded_two hmonth.2
  obtain ⟨h1, h2, hh, hhd, hhv⟩ := padded_two (by omega : t.secondOfDay / 3600 < 100)
  obtain ⟨n1, n2, hn, hnd, hnv⟩ := padded_two (by omega : t.secondOfDay / 60 % 60 < 100)
  obtain ⟨c1, c2, hc, hcd, hcv⟩ := padded_two (by split <;> omega :
    t.secondOfDay % 60 + (if t.nanos < 1000000000 then 0 else 1) < 100)
  have hyear : yearText t.date.year = [y1, y2, y3, y4] := by
    rw [yearText, if_pos ⟨h.1, h.2⟩, hy]
  have htext : t.offsetText = y1 :: y2 :: y3 :: y4 :: '-' :: m1 :: m2 :: '-' :: d1 :: d2 :: 'T' ::
      h1 :: h2 :: ':' :: n1 :: n2 :: ':' :: c1 :: c2 ::
      (fractionText (t.nanos % 1000000000) ++ '+' :: "00:00".toList) := by
    simp only [offsetText, textWith, localText, hyear, hm, hd, hh, hn, hc]
    rfl
  have hdate : (⟨((t.date.year.toNat : Nat) : Int), t.date.month, t.date.day⟩ : Date) = t.date := by
    have : ((t.date.year.toNat : Nat) : Int) = t.date.year := Int.toNat_of_nonneg h.1
    rw [this]
  have hlimits : ¬ (23 < t.secondOfDay / 3600 ∨ 59 < t.secondOfDay / 60 % 60 ∨
      60 < t.secondOfDay % 60 + if t.nanos < 1000000000 then 0 else 1) := by
    split <;> omega
  have hok := ofFields_date t h
  have hbind : ∀ {α β : Type} (a : α) (f : α → Except Fault β), (Except.ok a >>= f) = f a :=
    fun _ _ => rfl
  rw [htext]
  simp only [read, hyd, hyv, hmd, hmv, hdd, hdv, hhd, hhv, hnd, hnv, hcd, hcv, if_true,
    decide_true, Bool.true_or, hbind, hdate, hvalid, Bool.not_true, Bool.false_eq_true, if_false]
  have hzone : readOffset colon ('+' :: "00:00".toList) = .ok (0, []) := readOffset_zero
  rcases fraction_read (Nat.mod_lt t.nanos (by omega)) with ⟨hzero, hnone⟩ | ⟨ds, hsome, hread⟩
  · rw [hzero] at hok
    simp only [hnone, List.nil_append]
    split
    next he => simp at he
    next =>
      rw [if_neg hlimits, hzone, hbind]
      exact hok
  · simp only [hsome, List.cons_append, hread, hbind]
    rw [if_neg hlimits, hzone, hbind]
    exact hok

/-- The strict form begins with a digit. -/
lemma read_of_not_isDigit {c : Char} (hc : isDigit c = false) (s : List Char) :
    ∃ f, read (c :: s) = .error f := by
  unfold read
  split
  next heq =>
    obtain ⟨rfl, -⟩ := List.cons.inj heq
    refine ⟨.invalid, ?_⟩
    simp only [List.all_cons, hc, Bool.false_and, Bool.false_eq_true, if_false]
    rfl
  next => exact ⟨_, rfl⟩

/-- Only an instant with a plain year is read back. -/
lemma hasPlainYear_of_read {t u : Instant} (h : read t.offsetText = .ok u) : t.HasPlainYear := by
  by_contra hyear
  have hsign : ∃ c s, isDigit c = false ∧ t.offsetText = c :: s := by
    unfold HasPlainYear at hyear
    simp only [offsetText, textWith, localText, yearText, if_neg hyear]
    split
    · exact ⟨'-', _, rfl, rfl⟩
    · exact ⟨'+', _, rfl, rfl⟩
  obtain ⟨c, s, hc, hs⟩ := hsign
  obtain ⟨f, hf⟩ := read_of_not_isDigit hc s
  rw [hs, hf] at h
  cases h

end NodeWatch.Time.Instant
