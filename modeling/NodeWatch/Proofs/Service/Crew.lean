import NodeWatch.Proofs.Service.Turns

/-!
The tasks of the background, and the looks they wait for.

Each task has a number of its own, and the looks of the background that are under way are those
that its tasks wait for. That still is so when a task begins to wait, has waited, or is over.
-/

namespace NodeWatch.Service.Controls

/-- The tasks of the background, the number of the next one, and the looks that are under way. -/
structure Crew (tasks : List Task) (next : Nat) (looks : List Look) : Prop where
  distinct : (tasks.map (·.id)).Nodup
  old : ∀ k ∈ tasks, k.id < next
  sweepers : ∀ k ∈ tasks, k.sweeps = true → k.look = none
  looks : looks.Perm (tasks.filterMap (·.look))

variable {tasks : List Task} {next : Nat} {looks looks' rest : List Look} {k k' : Task} {l : Look}

lemma filterMap_cons_look (k : Task) (tasks : List Task) :
    (k :: tasks).filterMap (·.look) = k.look.toList ++ tasks.filterMap (·.look) := by
  rw [List.filterMap_cons]
  cases k.look <;> rfl

/-- Tasks without numbers in common are one of them and the others. -/
lemma perm_cons_filter (hdistinct : (tasks.map (·.id)).Nodup) (hk : k ∈ tasks) :
    tasks.Perm (k :: tasks.filter (·.id ≠ k.id)) := by
  induction tasks with
  | nil => simp at hk
  | cons k' tasks ih =>
    obtain ⟨hnew, hdistinct⟩ := List.nodup_cons.mp hdistinct
    rcases List.mem_cons.mp hk with rfl | hk
    · have hall : tasks.filter (·.id ≠ k.id) = tasks := List.filter_eq_self.mpr fun k' hk' => by
        have hne : k'.id ≠ k.id := fun he => hnew (List.mem_map.mpr ⟨k', hk', he⟩)
        simpa using hne
      rw [List.filter_cons_of_neg (by simp), hall]
    · have hne : k'.id ≠ k.id := fun he => hnew (List.mem_map.mpr ⟨k, hk, he.symm⟩)
      rw [List.filter_cons_of_pos (by simpa using hne)]
      exact ((ih hdistinct hk).cons k').trans (.swap k k' _)

namespace Crew

/-- A number stands for one task. -/
lemma eq_of_id (h : Crew tasks next looks) (hk : k ∈ tasks) (hk' : k' ∈ tasks)
    (hid : k.id = k'.id) : k = k' :=
  List.inj_on_of_nodup_map h.distinct hk hk' hid

/-- The looks are that of one task and those of the others. -/
lemma looks_split (h : Crew tasks next looks) (hk : k ∈ tasks) :
    looks.Perm (k.look.toList ++ (tasks.filter (·.id ≠ k.id)).filterMap (·.look)) := by
  have hperm := (perm_cons_filter h.distinct hk).filterMap (·.look)
  rw [filterMap_cons_look] at hperm
  exact h.looks.trans hperm

lemma mem_looks (h : Crew tasks next looks) (hk : k ∈ tasks) (hlook : k.look = some l) :
    l ∈ looks :=
  h.looks.mem_iff.mpr (List.mem_filterMap.mpr ⟨k, hk, hlook⟩)

/-- Nobody waits for a look if the only one that looks does not. -/
lemma looks_eq_nil (h : Crew tasks next looks) (hnone : ∀ k ∈ tasks, k.look = none) :
    looks = [] := by
  have hempty := List.filterMap_eq_nil_iff.mpr hnone
  exact List.perm_nil.mp (hempty ▸ h.looks)

/-- A task is over, and so is the look that it has waited for. -/
lemma endTask (h : Crew tasks next looks) (hk : k ∈ tasks)
    (hlooks : (k.look.toList ++ looks').Perm looks) :
    Crew (tasks.filter (·.id ≠ k.id)) next looks' where
  distinct := h.distinct.sublist (List.filter_sublist.map _)
  old k' hk' := h.old k' (List.mem_of_mem_filter hk')
  sweepers k' hk' := h.sweepers k' (List.mem_of_mem_filter hk')
  looks := (List.perm_append_left_iff _).mp (hlooks.trans (h.looks_split hk))

/-- Tasks change, and keep their numbers. -/
lemma map (h : Crew tasks next looks) {f : Task → Task} (hid : ∀ k ∈ tasks, (f k).id = k.id)
    (hsweepers : ∀ k ∈ tasks, (f k).sweeps = true → (f k).look = none)
    (hlooks : looks'.Perm ((tasks.map f).filterMap (·.look))) :
    Crew (tasks.map f) next looks' where
  distinct := by
    rw [List.map_map]
    exact (List.map_congr_left hid : tasks.map ((·.id) ∘ f) = _) ▸ h.distinct
  old := by
    rintro _ hk'
    obtain ⟨k, hk, rfl⟩ := List.mem_map.mp hk'
    rw [hid k hk]
    exact h.old k hk
  sweepers := by
    rintro _ hk'
    obtain ⟨k, hk, rfl⟩ := List.mem_map.mp hk'
    exact hsweepers k hk
  looks := hlooks

/-- A task that looks begins to wait, or has waited. -/
lemma setLook (h : Crew tasks next looks) (hk : k ∈ tasks) (hlooker : k.sweeps = false)
    (look : Option Look) (hrest : looks.Perm (k.look.toList ++ rest)) :
    Crew (tasks.map fun t => if t.id = k.id then { t with look } else t) next
      (look.toList ++ rest) := by
  refine h.map (fun t ht => ?id) (fun t ht => ?sweepers) ?looks
  case id => split <;> rfl
  case sweepers =>
    split
    next hid => simp [h.eq_of_id ht hk hid, hlooker]
    next hid => exact h.sweepers t ht
  case looks =>
    have hothers : (tasks.filter (·.id ≠ k.id)).map
        (fun t => if t.id = k.id then { t with look } else t) = tasks.filter (·.id ≠ k.id) := by
      refine (List.map_congr_left fun t ht => if_neg ?_).trans (List.map_id _)
      simpa using (List.mem_filter.mp ht).2
    have hmap := ((perm_cons_filter h.distinct hk).map
      (fun t => if t.id = k.id then { t with look } else t)).filterMap (·.look)
    rw [List.map_cons, if_pos rfl, hothers, filterMap_cons_look] at hmap
    have hsame := (List.perm_append_left_iff _).mp (hrest.symm.trans (h.looks_split hk))
    exact (hsame.append_left _).trans hmap.symm

/-- A task knows when to sweep. -/
lemma setReady (h : Crew tasks next looks) (id : Nat) :
    Crew (tasks.map fun t => if t.id = id then { t with ready := true } else t) next looks := by
  refine h.map (fun t ht => ?id) (fun t ht => ?sweepers) ?looks
  case id => split <;> rfl
  case sweepers => split <;> exact h.sweepers t ht
  case looks =>
    rw [List.filterMap_map]
    refine h.looks.trans (.of_eq (List.filterMap_congr fun t ht => ?_))
    simp only [Function.comp_apply]
    split <;> rfl

/-- Two more tasks begin. -/
lemma hire (h : Crew tasks next looks) :
    Crew (tasks ++ [{ id := next, sweeps := false }, { id := next + 1, sweeps := true }])
      (next + 2) looks where
  distinct := by
    rw [List.map_append, List.nodup_append]
    refine ⟨h.distinct, by simp, fun id hid id' hid' he => ?_⟩
    obtain ⟨k, hk, rfl⟩ := List.mem_map.mp hid
    have hold := h.old k hk
    simp only [List.map_cons, List.map_nil, List.mem_cons, List.not_mem_nil, or_false] at hid'
    omega
  old k hk := by
    rcases List.mem_append.mp hk with hk | hk
    · have hold := h.old k hk
      omega
    · simp only [List.mem_cons, List.not_mem_nil, or_false] at hk
      rcases hk with rfl | rfl
      · exact Nat.lt_succ_of_lt (Nat.lt_succ_self next)
      · exact Nat.lt_succ_self (next + 1)
  sweepers k hk hsweeps := by
    rcases List.mem_append.mp hk with hk | hk
    · exact h.sweepers k hk hsweeps
    · simp only [List.mem_cons, List.not_mem_nil, or_false] at hk
      rcases hk with rfl | rfl <;> rfl
  looks := by
    rw [List.filterMap_append]
    simpa using h.looks

end Crew

end NodeWatch.Service.Controls
