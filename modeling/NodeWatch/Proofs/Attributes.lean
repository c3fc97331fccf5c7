import Mathlib.Data.List.Basic
import Mathlib.Data.String.Basic
import NodeWatch.Attributes

/-!
Attributes do not depend on the order in which they are given.

The entries stand in the order of their keys, so that there is one list for each set of entries with
distinct keys.
-/

namespace NodeWatch.Attributes

/-- The entries stand in the order of their keys. -/
def Sorted (m : Attributes) : Prop := m.entries.Pairwise (·.1 < ·.1)

variable {m : Attributes} {k v : String} {kvs : List (String × String)}

lemma sorted_empty : Sorted empty := List.Pairwise.nil

lemma mem_insertInto {p : String × String} (h : p ∈ insertInto k v kvs) : p = (k, v) ∨ p ∈ kvs := by
  induction kvs with
  | nil => exact .inl (List.mem_singleton.mp h)
  | cons e r ih =>
    rw [insertInto] at h
    split at h
    · simpa using h
    · split at h
      · rcases List.mem_cons.mp h with rfl | h
        · exact .inl rfl
        · exact .inr (List.mem_cons_of_mem _ h)
      · rcases List.mem_cons.mp h with rfl | h
        · exact .inr List.mem_cons_self
        · exact (ih h).imp_right (List.mem_cons_of_mem _)

lemma Sorted.insert (h : m.Sorted) (k v : String) : (m.insert k v).Sorted := by
  obtain ⟨kvs⟩ := m
  show (insertInto k v kvs).Pairwise (·.1 < ·.1)
  induction kvs with
  | nil => exact List.pairwise_singleton _ _
  | cons e r ih =>
    obtain ⟨hfirst, hrest⟩ := List.pairwise_cons.mp h
    rw [insertInto]
    split
    next hlt =>
      refine List.pairwise_cons.mpr ⟨fun p hp => ?_, h⟩
      rcases List.mem_cons.mp hp with rfl | hp
      · exact hlt
      · exact String.lt_trans hlt (hfirst p hp)
    next hle =>
      split
      next he => exact List.pairwise_cons.mpr ⟨he ▸ hfirst, hrest⟩
      next hne =>
        refine List.pairwise_cons.mpr ⟨fun p hp => ?_, ih hrest⟩
        rcases mem_insertInto hp with rfl | hp
        · exact lt_of_le_of_ne (not_lt.mp hle) (Ne.symm hne)
        · exact hfirst p hp

lemma Sorted.nodup_keys (h : m.Sorted) : (m.entries.map (·.1)).Nodup :=
  List.pairwise_map.mpr (List.Pairwise.imp (fun hlt => ne_of_lt hlt) h)

/-- A new key only adds its entry. -/
lemma perm_insertInto (hk : ∀ p ∈ kvs, p.1 ≠ k) : (insertInto k v kvs).Perm ((k, v) :: kvs) := by
  induction kvs with
  | nil => exact .refl _
  | cons e r ih =>
    obtain ⟨l, w⟩ := e
    have hne : k ≠ l := Ne.symm (hk _ List.mem_cons_self)
    by_cases hlt : k < l
    · rw [insertInto, if_pos hlt]
    · rw [insertInto, if_neg hlt, if_neg hne]
      exact ((ih fun p hp => hk p (List.mem_cons_of_mem _ hp)).cons _).trans (.swap _ _ _)

/-- All that is given is there, if no key is given twice. -/
lemma perm_foldl_insert (hkeys : (kvs.map (·.1)).Nodup)
    (hnew : ∀ p ∈ kvs, ∀ q ∈ m.entries, q.1 ≠ p.1) :
    (kvs.foldl (fun m (k, v) => m.insert k v) m).entries.Perm (kvs ++ m.entries) := by
  induction kvs generalizing m with
  | nil => exact .refl _
  | cons e r ih =>
    obtain ⟨hfresh, hr⟩ := List.nodup_cons.mp hkeys
    have hinsert := perm_insertInto (v := e.2) (hnew e List.mem_cons_self)
    have hrest := ih (m := m.insert e.1 e.2) hr fun p hp q hq => by
      rcases mem_insertInto hq with rfl | hq
      · intro he
        exact hfresh (List.mem_map.mpr ⟨p, hp, he.symm⟩)
      · exact hnew p (List.mem_cons_of_mem _ hp) q hq
    exact hrest.trans ((hinsert.append_left r).trans List.perm_middle)

lemma sorted_foldl_insert (h : m.Sorted) (kvs : List (String × String)) :
    (kvs.foldl (fun m (k, v) => m.insert k v) m).Sorted := by
  induction kvs generalizing m with
  | nil => exact h
  | cons e r ih => exact ih (h.insert e.1 e.2)

/-- **Entries can be given in any order.** -/
theorem ofList_of_perm (h : m.Sorted) (hperm : kvs.Perm m.entries) : ofList kvs = m := by
  have hkeys : (kvs.map (·.1)).Nodup := (hperm.map _).nodup_iff.mpr h.nodup_keys
  have hall := perm_foldl_insert (m := empty) hkeys (by simp [empty])
  have hentries : (ofList kvs).entries = m.entries := by
    refine List.Perm.eq_of_pairwise (fun p q _ _ hpq hqp => ?_)
      (sorted_foldl_insert sorted_empty kvs) h
      ((List.append_nil kvs ▸ hall).trans hperm)
    exact absurd (lt_trans hpq hqp) (lt_irrefl _)
  obtain ⟨entries⟩ := m
  exact congrArg Attributes.mk hentries

end NodeWatch.Attributes
