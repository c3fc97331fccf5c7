import Mathlib.Data.List.Induction
import Mathlib.Tactic.Common
import NodeWatch.Observation
import NodeWatch.Proofs.Distinct

/-!
Lists of observations, and chains of attributes.

Of a list of observations the last of each identity is kept, in the place of the first. An
observation that attributes are given one after the other has the capabilities that its attributes
tell of.
-/

namespace NodeWatch.Observation

/-! ### Observations put in their places -/

section

variable {o : Observation} {os : List Observation}

lemma put_of_notMem (h : ∀ p ∈ os, p.id ≠ o.id) : put o os = os ++ [o] := by
  induction os with
  | nil => rfl
  | cons p os ih =>
    rw [put, if_neg (h p List.mem_cons_self), ih fun q hq => h q (List.mem_cons_of_mem _ hq)]
    rfl

/-- An observation that is there already changes nothing, if nothing else has its identity. -/
lemma put_of_mem (ho : o ∈ os) (h : ∀ p ∈ os, p.id = o.id → p = o) : put o os = os := by
  induction os with
  | nil => cases ho
  | cons p os ih =>
    by_cases hp : p.id = o.id
    · rw [put, if_pos hp, h p List.mem_cons_self hp]
    · have ho' : o ∈ os := (List.mem_cons.mp ho).resolve_left fun he => hp (by rw [he])
      rw [put, if_neg hp, ih ho' fun q hq => h q (List.mem_cons_of_mem _ hq)]

lemma ids_put (o : Observation) (os : List Observation) :
    (o.put os).map (·.id) = if o.id ∈ os.map (·.id) then os.map (·.id)
      else os.map (·.id) ++ [o.id] := by
  induction os with
  | nil => rfl
  | cons p os ih =>
    rw [put]
    by_cases hp : p.id = o.id
    · rw [if_pos hp]
      simp [hp]
    · have hmem : o.id ∈ (p :: os).map (·.id) ↔ o.id ∈ os.map (·.id) := by
        rw [List.map_cons, List.mem_cons]
        exact or_iff_right (Ne.symm hp)
      rw [if_neg hp, List.map_cons, ih]
      by_cases ho : o.id ∈ os.map (·.id)
      · rw [if_pos ho, if_pos (hmem.mpr ho)]
        rfl
      · rw [if_neg ho, if_neg (mt hmem.mp ho)]
        rfl

lemma find?_put (o : Observation) (os : List Observation) (id : String) :
    (o.put os).find? (·.id = id) = if o.id = id then some o else os.find? (·.id = id) := by
  induction os with
  | nil => by_cases ho : o.id = id <;> simp [put, ho]
  | cons p os ih =>
    rw [put]
    by_cases hp : p.id = o.id
    · by_cases ho : o.id = id <;> simp [hp, ho]
    · rw [if_neg hp, List.find?_cons, ih, List.find?_cons]
      by_cases hid : p.id = id
      · have ho : o.id ≠ id := fun h => hp (hid.trans h.symm)
        simp [hid, ho]
      · simp [hid]

/-! ### The last of each identity -/

/-- The observation is in the list, and none with its identity comes later. -/
def IsLast (o : Observation) (os : List Observation) : Prop :=
  ∃ front back, os = front ++ o :: back ∧ ∀ p ∈ back, p.id ≠ o.id

lemma latestById_concat (os : List Observation) (o : Observation) :
    latestById (os ++ [o]) = put o (latestById os) :=
  List.foldl_concat _ _ _ _

/-- Identities stand where they stand first. -/
lemma ids_latestById (os : List Observation) :
    (latestById os).map (·.id) = distinct (os.map (·.id)) := by
  induction os using List.reverseRecOn with
  | nil => rfl
  | append_singleton os o ih =>
    rw [latestById_concat, ids_put, ih, List.map_append, List.map_singleton, distinct_concat]
    simp only [mem_distinct]

lemma nodup_latestById (os : List Observation) : ((latestById os).map (·.id)).Nodup := by
  rw [ids_latestById]
  exact nodup_distinct _

/-- What remains of an identity is its last observation. -/
lemma find?_latestById (os : List Observation) (id : String) :
    (latestById os).find? (·.id = id) = os.reverse.find? (·.id = id) := by
  induction os using List.reverseRecOn with
  | nil => rfl
  | append_singleton os o ih =>
    rw [latestById_concat, find?_put, ih, List.reverse_append, List.reverse_singleton,
      List.singleton_append, List.find?_cons]
    by_cases ho : o.id = id <;> simp [ho]

lemma find?_of_mem (hn : (os.map (·.id)).Nodup) (ho : o ∈ os) :
    os.find? (·.id = o.id) = some o := by
  cases hf : os.find? (·.id = o.id) with
  | none => exact absurd (List.find?_eq_none.mp hf o ho) (by simp)
  | some p =>
    have hid : p.id = o.id := by simpa using List.find?_some hf
    rw [List.inj_on_of_nodup_map hn (List.mem_of_find?_eq_some hf) ho hid]

lemma isLast_of_mem_latestById (h : o ∈ latestById os) : IsLast o os := by
  have hfind := find?_of_mem (nodup_latestById os) h
  rw [find?_latestById, List.find?_eq_some_iff_append] at hfind
  obtain ⟨-, later, earlier, hos, hlater⟩ := hfind
  refine ⟨earlier.reverse, later.reverse, ?_, fun p hp => ?_⟩
  · rw [← List.reverse_reverse os, hos]
    simp
  · simpa using hlater p (List.mem_reverse.mp hp)

/-- Distinct identities are kept as they are. -/
lemma latestById_of_nodup (h : (os.map (·.id)).Nodup) : latestById os = os := by
  induction os using List.reverseRecOn with
  | nil => rfl
  | append_singleton os o ih =>
    rw [List.map_append, List.map_singleton, List.nodup_append] at h
    obtain ⟨hos, -, hnew⟩ := h
    rw [latestById_concat, ih hos]
    exact put_of_notMem fun p hp => hnew _ (List.mem_map_of_mem hp) _ (List.mem_singleton.mpr rfl)

/-- Where only equal things give observations of one identity, each is kept where it comes first. -/
lemma latestById_map {α : Type} [BEq α] [LawfulBEq α] {f : α → Observation} {xs : List α}
    (h : ∀ x ∈ xs, ∀ y ∈ xs, (f x).id = (f y).id → x = y) :
    latestById (xs.map f) = xs.eraseDups.map f := by
  induction xs using List.reverseRecOn with
  | nil => rfl
  | append_singleton xs x ih =>
    have hxs := ih fun y hy z hz =>
      h y (List.mem_append_left _ hy) z (List.mem_append_left _ hz)
    have hid : ∀ y ∈ xs, (f y).id = (f x).id → y = x := fun y hy =>
      h y (List.mem_append_left _ hy) x (by simp)
    rw [List.map_append, List.map_singleton, latestById_concat, hxs, List.eraseDups_append]
    by_cases hx : x ∈ xs
    · have hnone : [x].removeAll xs = [] := by simp [List.removeAll, hx]
      rw [hnone, List.eraseDups_nil, List.append_nil]
      refine put_of_mem (List.mem_map_of_mem (List.mem_eraseDups.mpr hx)) fun p hp hpid => ?_
      obtain ⟨y, hy, rfl⟩ := List.mem_map.mp hp
      rw [hid y (List.mem_eraseDups.mp hy) hpid]
    · have hnew : [x].removeAll xs = [x] := by simp [List.removeAll, hx]
      have hone : [x].eraseDups = [x] := by simp [List.eraseDups_cons]
      rw [hnew, hone, List.map_append, List.map_singleton]
      refine put_of_notMem fun p hp hpid => ?_
      obtain ⟨y, hy, rfl⟩ := List.mem_map.mp hp
      exact hx (hid y (List.mem_eraseDups.mp hy) hpid ▸ List.mem_eraseDups.mp hy)

end

/-! ### Attributes given one after the other -/

section

variable {o : Observation} {ps : List (String × String)}

/-- Attributes set one after the other. -/
def withAttributes (o : Observation) (ps : List (String × String)) : Observation :=
  ps.foldl (fun o (k, v) => o.withAttribute k v) o

/-- Attributes change nothing but themselves and the capabilities. -/
lemma withAttributes_frame (o : Observation) (ps : List (String × String)) :
    o.withAttributes ps = { o with
      metadata := (o.withAttributes ps).metadata
      capabilities := (o.withAttributes ps).capabilities } := by
  induction ps generalizing o with
  | nil => rfl
  | cons p ps ih => exact ih (o.withAttribute p.1 p.2)

lemma withAttributes_metadata (o : Observation) (ps : List (String × String)) :
    (o.withAttributes ps).metadata = ps.foldl (fun m (k, v) => m.insert k v) o.metadata := by
  induction ps generalizing o with
  | nil => rfl
  | cons p ps ih => exact ih (o.withAttribute p.1 p.2)

/-- The capabilities are those that the attribute writes. -/
def Capable (o : Observation) : Prop :=
  o.capabilities = ((o.metadata.get? Key.capabilities.text).map Capabilities.ofString).getD []

lemma Capable.withAttribute (h : o.Capable) (k v : String) : (o.withAttribute k v).Capable := by
  unfold Capable Observation.withAttribute at *
  by_cases hk : k = Key.capabilities.text
  · subst hk
    simp [Attributes.get?_insert_self]
  · simp [hk, Attributes.get?_insert_ne _ _ (Ne.symm hk), h]

lemma Capable.withAttributes (h : o.Capable) (ps : List (String × String)) :
    (o.withAttributes ps).Capable := by
  induction ps generalizing o with
  | nil => exact h
  | cons p ps ih => exact ih (h.withAttribute p.1 p.2)

end

end NodeWatch.Observation
