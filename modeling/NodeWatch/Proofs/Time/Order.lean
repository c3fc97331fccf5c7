import Mathlib.Tactic.Common
import NodeWatch.Time.Instant

/-!
The order of instants, and the later of two.
-/

namespace NodeWatch.Time.Instant

variable {t u v : Instant}

lemma le_iff : t ≤ u ↔ t.seconds < u.seconds ∨ (t.seconds = u.seconds ∧ t.nanos ≤ u.nanos) := by
  change le t u = true ↔ _
  simp [le]

lemma lt_iff : t < u ↔ ¬ u ≤ t := by
  change (!le u t) = true ↔ ¬ le u t = true
  simp

lemma le_refl (t : Instant) : t ≤ t := le_iff.mpr (.inr ⟨rfl, Nat.le_refl _⟩)

lemma le_trans (h : t ≤ u) (h' : u ≤ v) : t ≤ v := by
  rw [le_iff] at *
  omega

lemma le_antisymm (h : t ≤ u) (h' : u ≤ t) : t = u := by
  rw [le_iff] at h h'
  obtain ⟨s, n, hn⟩ := t
  obtain ⟨s', n', hn'⟩ := u
  simp only at h h'
  obtain rfl : s = s' := by omega
  obtain rfl : n = n' := by omega
  rfl

lemma le_of_lt (h : t < u) : t ≤ u := by
  rw [lt_iff, le_iff] at h
  rw [le_iff]
  omega

lemma le_latest_left (t u : Instant) : t ≤ t.latest u := by
  unfold latest
  split
  next h => exact le_of_lt h
  next => exact le_refl t

lemma le_latest_right (t u : Instant) : u ≤ t.latest u := by
  unfold latest
  split
  next => exact le_refl u
  next h =>
    rw [lt_iff] at h
    exact Decidable.not_not.mp h

lemma latest_le (h : t ≤ v) (h' : u ≤ v) : t.latest u ≤ v := by
  unfold latest
  split <;> assumption

lemma latest_eq_left (h : u ≤ t) : t.latest u = t :=
  le_antisymm (latest_le (le_refl t) h) (le_latest_left t u)

lemma latest_right_comm (t u v : Instant) : (t.latest u).latest v = (t.latest v).latest u := by
  have h : ∀ a b : Instant, (t.latest a).latest b ≤ (t.latest b).latest a := fun a b =>
    latest_le (latest_le (le_trans (le_latest_left t b) (le_latest_left _ a)) (le_latest_right _ a))
      (le_trans (le_latest_right t b) (le_latest_left _ a))
  exact le_antisymm (h u v) (h v u)

end NodeWatch.Time.Instant
