import Mathlib.Data.List.Nodup
import NodeWatch.Distinct

/-!
First occurrences: which elements they are, and in which order.
-/

namespace NodeWatch

variable {α : Type} [DecidableEq α] {x : α} {xs : List α}

lemma mem_distinct : x ∈ distinct xs ↔ x ∈ xs := by
  induction xs with
  | nil => rfl
  | cons y ys ih =>
    by_cases hx : x = y <;> simp [distinct, hx, ih]

lemma nodup_distinct (xs : List α) : (distinct xs).Nodup := by
  induction xs with
  | nil => exact List.nodup_nil
  | cons x xs ih => exact List.nodup_cons.mpr ⟨by simp, ih.filter _⟩

lemma distinct_of_nodup (h : xs.Nodup) : distinct xs = xs := by
  induction xs with
  | nil => rfl
  | cons x xs ih =>
    obtain ⟨hx, hxs⟩ := List.nodup_cons.mp h
    rw [distinct, ih hxs]
    exact congrArg (x :: ·) (List.filter_eq_self.mpr fun y hy => by
      simpa using ne_of_mem_of_not_mem hy hx)

lemma distinct_map {β : Type} [DecidableEq β] {f : α → β} (hf : f.Injective) (xs : List α) :
    distinct (xs.map f) = (distinct xs).map f := by
  induction xs with
  | nil => rfl
  | cons x xs ih =>
    rw [List.map_cons, distinct, ih, distinct, List.map_cons, List.filter_map]
    refine congrArg (fun ys => f x :: ys.map f) (List.filter_congr fun y _ => ?_)
    simp [hf.eq_iff]

/-- What comes last is new or not. -/
lemma distinct_concat (xs : List α) (x : α) :
    distinct (xs ++ [x]) = if x ∈ xs then distinct xs else distinct xs ++ [x] := by
  induction xs with
  | nil => rfl
  | cons y ys ih =>
    rw [List.cons_append, distinct, ih, distinct]
    by_cases hxy : x = y
    · subst hxy
      by_cases hx : x ∈ ys <;> simp [hx]
    · by_cases hx : x ∈ ys <;> simp [hx, hxy]

/-- The order is that of the first occurrences. -/
lemma pairwise_distinct (xs : List α) :
    (distinct xs).Pairwise fun x y => xs.idxOf x < xs.idxOf y := by
  induction xs with
  | nil => exact List.Pairwise.nil
  | cons z xs ih =>
    have hlater : ∀ x ∈ (distinct xs).filter (· ≠ z), (z :: xs).idxOf x = xs.idxOf x + 1 := by
      intro x hx
      have hne : x ≠ z := by simpa using (List.mem_filter.mp hx).2
      exact List.idxOf_cons_ne xs (Ne.symm hne)
    refine List.pairwise_cons.mpr ⟨fun x hx => ?_, ?_⟩
    · rw [hlater x hx, List.idxOf_cons_self]
      exact Nat.succ_pos _
    · refine (ih.filter _).imp_of_mem fun hx hy hlt => ?_
      rw [hlater _ hx, hlater _ hy]
      exact Nat.succ_lt_succ hlt

end NodeWatch
