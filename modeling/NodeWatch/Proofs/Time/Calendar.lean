import Mathlib.Tactic.Common
import NodeWatch.Time.Calendar

/-!
The calendar and the count of days agree: every day has a valid date, and its date has that day.

An era is a cycle of 400 years that begin in March. The year within an era is computed from the day
by a quotient that is exact because it never falls and is right on the first and the last day of
each year.
-/

namespace NodeWatch.Time.Date

/-- The year within an era that a day of the era is in. -/
def yearOfEra (d : Int) : Int := (d - d / 1460 + d / 36524 - d / 146096) / 365

/-- The days of an era before a year of it. -/
def daysBefore (y : Int) : Int := 365 * y + y / 4 - y / 100

lemma yearOfEra_succ {d : Int} (h₀ : 0 ≤ d) (h : d < 146096) :
    yearOfEra d ≤ yearOfEra (d + 1) := by
  unfold yearOfEra
  by_cases hl : d = 146095
  · subst hl
    decide
  · have h₁ : d / 146096 = 0 := by omega
    have h₂ : (d + 1) / 146096 = 0 := by omega
    omega

lemma yearOfEra_mono {d e : Int} (h₀ : 0 ≤ d) (hde : d ≤ e) (h : e ≤ 146096) :
    yearOfEra d ≤ yearOfEra e := by
  obtain ⟨k, rfl⟩ : ∃ k : Nat, e = d + k := ⟨(e - d).toNat, by omega⟩
  induction k with
  | zero => simp
  | succ k ih =>
    have hk : d + ((k + 1 : Nat) : Int) = d + k + 1 := by omega
    rw [hk] at h ⊢
    exact Int.le_trans (ih (by omega) (by omega)) (yearOfEra_succ (by omega) (by omega))

lemma yearOfEra_first_last :
    ∀ y : Fin 400, yearOfEra (daysBefore y) = y ∧ yearOfEra (daysBefore (y + 1) - 1) = y := by
  decide +kernel

lemma yearOfEra_bounds {d : Int} (h₀ : 0 ≤ d) (h : d < 146097) :
    0 ≤ yearOfEra d ∧ yearOfEra d ≤ 399 := by
  have hlow := yearOfEra_mono (Int.le_refl 0) h₀ (by omega)
  have hhigh := yearOfEra_mono h₀ (by omega : d ≤ 146096) (by omega)
  have h0 : yearOfEra 0 = 0 := by decide
  have h9 : yearOfEra 146096 = 399 := by decide
  omega

/-- A day is in its year; the 366th of it is there in leap years only. -/
lemma day_of_year {d : Int} (h₀ : 0 ≤ d) (h : d < 146097) :
    daysBefore (yearOfEra d) ≤ d ∧ (d ≤ daysBefore (yearOfEra d) + 364 ∨
      (d = daysBefore (yearOfEra d) + 365 ∧ (yearOfEra d + 1) % 4 = 0 ∧
        ((yearOfEra d + 1) % 100 ≠ 0 ∨ yearOfEra d = 399))) := by
  obtain ⟨hy₀, hy⟩ := yearOfEra_bounds h₀ h
  generalize hyear : yearOfEra d = y at hy₀ hy ⊢
  obtain ⟨k, rfl⟩ : ∃ k : Nat, y = k := ⟨y.toNat, by omega⟩
  have hfirst : daysBefore k ≤ d := by
    by_contra hlt
    rcases Nat.eq_zero_or_pos k with rfl | hk
    · exact hlt h₀
    · -- the day would be in an earlier year
      have hprev := (yearOfEra_first_last ⟨k - 1, by omega⟩).2
      have hcast : ((k - 1 : Nat) : Int) + 1 = k := by omega
      simp only [hcast] at hprev
      have := yearOfEra_mono h₀ (by omega : d ≤ daysBefore k - 1) (by unfold daysBefore; omega)
      omega
  have hlast : (k : Int) < 399 → d < daysBefore (k + 1) := by
    intro hk
    by_contra hge
    have hnext := (yearOfEra_first_last ⟨k + 1, by omega⟩).1
    have hcast : ((k + 1 : Nat) : Int) = k + 1 := by omega
    simp only [hcast] at hnext
    have := yearOfEra_mono (by unfold daysBefore; omega) (Int.not_lt.mp hge) (by omega)
    omega
  refine ⟨hfirst, ?_⟩
  unfold daysBefore at hfirst hlast ⊢
  by_cases hk : (k : Int) < 399
  · have := hlast hk
    by_cases h4 : ((k : Int) + 1) % 4 = 0
    · by_cases h100 : ((k : Int) + 1) % 100 = 0
      · omega
      · have : ((k : Int) + 1) / 100 = k / 100 := by omega
        omega
    · have h100 : ((k : Int) + 1) % 100 ≠ 0 := by omega
      have : ((k : Int) + 1) / 4 = k / 4 := by omega
      have : ((k : Int) + 1) / 100 = k / 100 := by omega
      omega
  · have : (k : Int) = 399 := by omega
    omega

/-! ### Dates -/

/-- Era, year within it and day of the year, all from March on. -/
lemma ofDays_eq (n : Int) : ∃ era y doy : Int, n + 719468 = era * 146097 + (daysBefore y + doy) ∧
    0 ≤ y ∧ y ≤ 399 ∧ 0 ≤ doy ∧ doy ≤ 365 ∧
    (doy = 365 → (y + 1) % 4 = 0 ∧ ((y + 1) % 100 ≠ 0 ∨ y = 399)) ∧
    ofDays n =
      let m := (5 * doy + 2) / 153
      let month := if m < 10 then m + 3 else m - 9
      ⟨if month ≤ 2 then y + era * 400 + 1 else y + era * 400, month.toNat,
        (doy - (153 * m + 2) / 5 + 1).toNat⟩ := by
  generalize hd : n + 719468 - (n + 719468) / 146097 * 146097 = d
  have h₀ : 0 ≤ d := by omega
  have h : d < 146097 := by omega
  obtain ⟨hy₀, hy⟩ := yearOfEra_bounds h₀ h
  obtain ⟨hfirst, hlast⟩ := day_of_year h₀ h
  refine ⟨(n + 719468) / 146097, yearOfEra d, d - daysBefore (yearOfEra d), by omega, hy₀, hy,
    by omega, by omega, by omega, ?_⟩
  rw [← hd]
  rfl

theorem toDays_ofDays (n : Int) : (ofDays n).toDays = n := by
  obtain ⟨era, y, doy, hn, hy₀, hy, hd₀, hd, -, he⟩ := ofDays_eq n
  rw [he]
  simp only [toDays]
  unfold daysBefore at hn
  generalize hm : (5 * doy + 2) / 153 = m
  by_cases hm10 : m < 10
  · have h3 : ¬ (m + 3).toNat ≤ 2 := by omega
    have h3' : ¬ m + 3 ≤ 2 := by omega
    simp only [hm10, if_true, h3, h3', if_false]
    omega
  · have h9 : (m - 9).toNat ≤ 2 := by omega
    have h9' : m - 9 ≤ 2 := by omega
    simp only [hm10, if_false, h9, h9', if_true]
    omega

lemma isLeapYear_march {y era : Int} (h₄ : (y + 1) % 4 = 0)
    (h : (y + 1) % 100 ≠ 0 ∨ y = 399) : isLeapYear (y + era * 400 + 1) = true := by
  have h4 : (y + era * 400 + 1) % 4 = 0 := by omega
  have h100 : (y + era * 400 + 1) % 100 ≠ 0 ∨ (y + era * 400 + 1) % 400 = 0 := by omega
  simpa [isLeapYear, h4] using h100

theorem isValid_ofDays (n : Int) : (ofDays n).isValid = true := by
  obtain ⟨era, y, doy, -, -, -, hd₀, hd, hleap, he⟩ := ofDays_eq n
  rw [he]
  simp only [isValid, Bool.and_eq_true, decide_eq_true_eq]
  generalize hm : (5 * doy + 2) / 153 = m
  -- the last month of a year is February, and its last day is there in leap years only
  by_cases hfeb : m = 11
  · subst hfeb
    have hmonth : (if (11 : Int) < 10 then (11 : Int) + 3 else 11 - 9) = 2 := by decide
    simp only [hmonth, Int.reduceToNat, Int.le_refl, monthLength, if_true]
    have hday : (doy - (153 * 11 + 2) / 5 + 1).toNat ≤ 28 ∨ doy = 365 := by omega
    rcases hday with hday | rfl
    · refine ⟨⟨⟨by omega, by omega⟩, by omega⟩, ?_⟩
      split <;> omega
    · obtain ⟨h₄, h⟩ := hleap rfl
      simp [isLeapYear_march h₄ h]
  · by_cases hm10 : m < 10
    · have hm3 : m + 3 ≠ 2 := by omega
      simp only [hm10, if_true, monthLength]
      refine ⟨⟨⟨by omega, by omega⟩, by omega⟩, ?_⟩
      split
      · omega
      · split <;> omega
    · obtain rfl : m = 10 := by omega
      have hmonth : (if (10 : Int) < 10 then (10 : Int) + 3 else 10 - 9) = 1 := by decide
      simp only [hmonth, Int.reduceToNat, monthLength]
      refine ⟨⟨⟨by omega, by omega⟩, by omega⟩, ?_⟩
      simp
      omega

end NodeWatch.Time.Date
