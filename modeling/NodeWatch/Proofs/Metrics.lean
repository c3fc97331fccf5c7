import Mathlib.Tactic.Common
import NodeWatch.Metrics

/-!
What counting changes.

One series of one family goes up by one, and with it the sum of the family. Everything else stays as
it was.
-/

namespace NodeWatch.Metrics

variable {m : Metrics} {f g : Family} {values values' : List String} {s t u : Series}
  {counts : List (Series × Nat)} {n : Nat}

/-! ### Series -/

lemma Series.same_iff : s.same t = true ↔ s.family = t.family ∧ s.reading = t.reading := by
  simp [Series.same]

lemma Series.same_congr (h : s.same t = true) : u.same s = u.same t := by
  obtain ⟨hf, hr⟩ := Series.same_iff.mp h
  simp [Series.same, hf, hr]

/-- The count of a series in a list of counts. -/
def countIn (s : Series) (counts : List (Series × Nat)) : Nat :=
  ((counts.find? fun (t, _) => s.same t).map (·.2)).getD 0

lemma countIn_cons (s t : Series) (n : Nat) (counts : List (Series × Nat)) :
    countIn s ((t, n) :: counts) = if s.same t then n else countIn s counts := by
  unfold countIn
  by_cases h : s.same t = true <;> simp [h]

lemma countIn_bump (s t : Series) (counts : List (Series × Nat)) :
    countIn s (bump t counts) = countIn s counts + if s.same t then 1 else 0 := by
  induction counts with
  | nil => rw [bump, countIn_cons]; simp [countIn]
  | cons c counts ih =>
    obtain ⟨u, n⟩ := c
    rw [bump]
    by_cases htu : t.same u = true
    · rw [if_pos htu, countIn_cons, countIn_cons, Series.same_congr htu]
      split <;> rfl
    · have hne : s.same u = true → s.same t = false := fun hsu => by
        rw [Bool.eq_false_iff]
        intro hst
        obtain ⟨hf, hr⟩ := Series.same_iff.mp hst
        obtain ⟨hf', hr'⟩ := Series.same_iff.mp hsu
        exact htu (Series.same_iff.mpr ⟨hf ▸ hf', hr ▸ hr'⟩)
      rw [if_neg htu, countIn_cons, countIn_cons, ih]
      by_cases hsu : s.same u = true
      · simp [hsu, hne hsu]
      · simp [hsu]

/-- The sum of a family in a list of counts. -/
def sumIn (f : Family) : List (Series × Nat) → Nat
  | [] => 0
  | (t, n) :: counts => (if t.family = f then n else 0) + sumIn f counts

lemma total_eq_sumIn (m : Metrics) (f : Family) : m.total f = sumIn f m.counts := by
  have hfold : ∀ (counts : List (Series × Nat)) (n : Nat),
      (counts.filter (·.1.family = f)).foldl (fun n c => n + c.2) n = n + sumIn f counts := by
    intro counts
    induction counts with
    | nil => exact fun n => rfl
    | cons c counts ih =>
      intro n
      by_cases hc : c.1.family = f
      · rw [List.filter_cons_of_pos (by simpa using hc), List.foldl_cons, ih, sumIn, if_pos hc,
          Nat.add_assoc]
      · rw [List.filter_cons_of_neg (by simpa using hc), ih, sumIn, if_neg hc, Nat.zero_add]
  exact (hfold _ 0).trans (Nat.zero_add _)

lemma sumIn_bump (f : Family) (t : Series) (counts : List (Series × Nat)) :
    sumIn f (bump t counts) = sumIn f counts + if t.family = f then 1 else 0 := by
  induction counts with
  | nil => rw [bump, sumIn, sumIn, Nat.zero_add]; rfl
  | cons c counts ih =>
    obtain ⟨u, n⟩ := c
    rw [bump]
    by_cases htu : t.same u = true
    · rw [if_pos htu, (Series.same_iff.mp htu).1, sumIn, sumIn]
      split <;> omega
    · rw [if_neg htu, sumIn, sumIn, ih, Nat.add_assoc]

/-! ### What is read after counting -/

@[simp] lemma active_count : (m.count f values).active = m.active := by
  unfold count
  split <;> rfl

@[simp] lemma members_count : (m.count f values).members = m.members := by
  unfold count
  split <;> rfl

lemma get_count (h : m.active = true) : (m.count f values).get g values' =
    m.get g values' + if (⟨g, values'⟩ : Series).same ⟨f, values⟩ then 1 else 0 := by
  have hget : ∀ k : Metrics, k.get g values' = countIn ⟨g, values'⟩ k.counts := fun _ => rfl
  rw [hget, hget, count, if_pos h, countIn_bump]

lemma total_count (h : m.active = true) :
    (m.count f values).total g = m.total g + if f = g then 1 else 0 := by
  rw [total_eq_sumIn, total_eq_sumIn, count, if_pos h, sumIn_bump]

/-- Counts one more in each of several series. -/
def countAll (m : Metrics) (ss : List Series) : Metrics :=
  ss.foldl (fun m s => m.count s.family s.values) m

variable {ss : List Series}

@[simp] lemma countAll_cons : m.countAll (s :: ss) = (m.count s.family s.values).countAll ss := rfl

@[simp] lemma active_countAll : (m.countAll ss).active = m.active := by
  induction ss generalizing m with
  | nil => rfl
  | cons s ss ih => exact ih.trans active_count

@[simp] lemma members_countAll : (m.countAll ss).members = m.members := by
  induction ss generalizing m with
  | nil => rfl
  | cons s ss ih => exact ih.trans members_count

lemma get_countAll (h : m.active = true) : (m.countAll ss).get g values =
    m.get g values + ss.countP ((⟨g, values⟩ : Series).same ·) := by
  induction ss generalizing m with
  | nil => rfl
  | cons s ss ih =>
    have hrest := ih (m := m.count s.family s.values) (by rw [active_count, h])
    rw [get_count h, Nat.add_assoc, Nat.add_comm (ite ..)] at hrest
    rw [countAll_cons, List.countP_cons]
    exact hrest

lemma total_countAll (h : m.active = true) :
    (m.countAll ss).total g = m.total g + ss.countP (·.family = g) := by
  induction ss generalizing m with
  | nil => rfl
  | cons s ss ih =>
    have hrest := ih (m := m.count s.family s.values) (by rw [active_count, h])
    rw [total_count h, Nat.add_assoc, Nat.add_comm (ite ..)] at hrest
    rw [countAll_cons, List.countP_cons, hrest]
    simp only [decide_eq_true_eq]

@[simp] lemma active_setMembers : (m.setMembers n).active = m.active := by
  unfold setMembers
  split <;> rfl

@[simp] lemma get_setMembers : (m.setMembers n).get g values = m.get g values := by
  unfold setMembers
  split <;> rfl

@[simp] lemma total_setMembers : (m.setMembers n).total g = m.total g := by
  unfold setMembers
  split <;> rfl

lemma members_setMembers (h : m.active = true) : (m.setMembers n).members = n := by
  rw [setMembers, if_pos h]

end NodeWatch.Metrics
