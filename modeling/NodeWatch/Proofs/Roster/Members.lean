import NodeWatch.Proofs.Roster.Picture

/-!
The member under an identity.

Observations made at one time renew the member of each identity with the last of them, and a sweep
keeps or removes each member by its own time. An identity that was lost is not lost again before it
is discovered.
-/

namespace NodeWatch

namespace Picture

variable {p q : Picture} {es : List Event} {id : String}

/-- Whoever is absent and comes back has been discovered. -/
lemma discovered_of_replay? (h : p.replay? es = some q) (hp : p id = none) (hq : q id ≠ none) :
    ∃ x ∈ es, x.kind = .discovered ∧ x.node.id = id := by
  induction es generalizing p with
  | nil =>
    rw [replay?_nil] at h
    exact absurd (Option.some.inj h ▸ hp) hq
  | cons x es ih =>
    rw [replay?_cons] at h
    obtain ⟨r, hr, hrest⟩ := Option.bind_eq_some_iff.mp h
    by_cases hid : x.node.id = id
    · refine ⟨x, by simp, ?_, hid⟩
      unfold after? at hr
      rw [hid, hp] at hr
      cases hk : x.kind with
      | discovered => rfl
      | updated => simp [hk] at hr
      | lost => simp [hk] at hr
    · have habsent : r id = none := by rw [after?_eq_some hr, set, if_neg (Ne.symm hid), hp]
      obtain ⟨y, hy, hrest⟩ := ih hrest habsent
      exact ⟨y, List.mem_cons_of_mem _ hy, hrest⟩

/-- **An identity that is lost twice is discovered in between.** -/
lemma discovered_between {front mid back : List Event} {e f : Event}
    (h : p.replay? (front ++ e :: mid ++ f :: back) = some q) (he : e.kind = .lost)
    (hf : f.kind = .lost) (hid : f.node.id = e.node.id) :
    ∃ x ∈ mid, x.kind = .discovered ∧ x.node.id = e.node.id := by
  rw [List.append_assoc, replay?_append] at h
  obtain ⟨p₁, -, h⟩ := Option.bind_eq_some_iff.mp h
  rw [List.cons_append, replay?_cons] at h
  obtain ⟨p₂, hlost, h⟩ := Option.bind_eq_some_iff.mp h
  rw [replay?_append] at h
  obtain ⟨p₃, hmid, h⟩ := Option.bind_eq_some_iff.mp h
  rw [replay?_cons] at h
  obtain ⟨p₄, hagain, -⟩ := Option.bind_eq_some_iff.mp h
  refine discovered_of_replay? hmid ?_ fun habsent => ?_
  · simp [after?_eq_some hlost, set, he]
  · simp [after?, hf, hid, habsent] at hagain

end Picture

namespace Roster

variable {r : Roster} {id : String}

/-- Of distinct identities, each that is observed has its member renewed. -/
lemma find?_observeAll {os : List Observation} (hn : (os.map (·.id)).Nodup) (r : Roster)
    (pinned : Bool) (now : Nat) (id : String) :
    (r.observeAll pinned now os).2.find? id =
      ((os.find? (·.id = id)).map (r.renewed · pinned now)).or (r.find? id) := by
  induction os generalizing r with
  | nil => rfl
  | cons o os ih =>
    obtain ⟨ho, hos⟩ := List.nodup_cons.mp hn
    have hrest := ih hos (r.observe o pinned now).2
    rw [find?_observe] at hrest
    rw [observeAll, List.find?_cons]
    by_cases hid : o.id = id
    · have hnone : os.find? (·.id = id) = none := by
        refine List.find?_eq_none.mpr fun k hk => ?_
        have hne : k.id ≠ o.id := fun h => ho (List.mem_map.mpr ⟨k, hk, h⟩)
        simpa [← hid] using hne
      rw [hnone, if_pos hid.symm] at hrest
      simpa [hid] using hrest
    · rw [if_neg (Ne.symm hid)] at hrest
      simp only [hid, decide_false] at hrest ⊢
      rw [hrest]
      cases hk : os.find? (·.id = id) with
      | none => rfl
      | some k =>
        have hkid : k.id = id := by simpa using List.find?_some hk
        have hfind : (r.observe o pinned now).2.find? k.id = r.find? k.id := by
          rw [find?_observe, if_neg (hkid ▸ Ne.symm hid)]
        simp [renewed, hfind]

/-- Nobody leaves by being observed. -/
lemma isSome_find?_observeAll {os : List Observation} (hn : (os.map (·.id)).Nodup) (pinned : Bool)
    (now : Nat) (h : (r.find? id).isSome = true) :
    ((r.observeAll pinned now os).2.find? id).isSome = true := by
  rw [find?_observeAll hn, Option.isSome_or, h, Bool.or_true]

lemma mem_sweep {threshold now : Nat} {places : Places} {m : Member} :
    m ∈ (r.sweep threshold now places).2.members ↔
      m ∈ r.members ∧ m.isStale threshold now = false := by
  simp [sweep]

lemma mem_lost_sweep {threshold now : Nat} {places : Places} {e : Event} :
    e ∈ (r.sweep threshold now places).1.map (⟨.lost, ·⟩) ↔
      e.kind = .lost ∧ ∃ m ∈ r.members, m.node = e.node ∧ m.isStale threshold now = true := by
  rw [List.mem_map]
  constructor
  · rintro ⟨o, ho, rfl⟩
    obtain ⟨m, hm, hs, hnode⟩ := mem_given_up.mp ho
    exact ⟨rfl, m, hm, hnode, hs⟩
  · rintro ⟨hk, m, hm, hnode, hs⟩
    exact ⟨e.node, mem_given_up.mpr ⟨m, hm, hs, hnode⟩, by rw [← hk]⟩

/-! ### The number of members -/

lemma size_observe (r : Roster) (o : Observation) (pinned : Bool) (now : Nat) :
    (r.observe o pinned now).2.size =
      r.size + if (r.observe o pinned now).1 = some .discovered then 1 else 0 := by
  unfold observe
  cases hf : r.find? o.id with
  | none => simp [size]
  | some m => by_cases hd : m.node.differsFrom o = true <;> simp [size, modify, hd]

/-- Each discovery is one member more. -/
lemma size_observeAll (r : Roster) (pinned : Bool) (now : Nat) (os : List Observation) :
    (r.observeAll pinned now os).2.size =
      r.size + (r.observeAll pinned now os).1.countP (·.kind = .discovered) := by
  induction os generalizing r with
  | nil => rfl
  | cons o os ih =>
    have htold : ((r.observe o pinned now).1.map (⟨·, o⟩ : EventKind → Event)).toList.countP
        (·.kind = .discovered) =
        if (r.observe o pinned now).1 = some .discovered then 1 else 0 := by
      cases (r.observe o pinned now).1 with
      | none => rfl
      | some k => by_cases hk : k = .discovered <;> simp [hk]
    simp only [observeAll, List.countP_append, ih, size_observe, htold]
    omega

/-- Each that is lost is one member less. -/
lemma size_sweep (r : Roster) (threshold now : Nat) (places : Places) :
    (r.sweep threshold now places).2.size + (r.sweep threshold now places).1.length = r.size := by
  have hsplit := List.length_eq_countP_add_countP (l := r.members)
    (fun m => m.isStale threshold now)
  simp only [sweep, size, List.length_map, length_inPlaces, ← List.countP_eq_length_filter, hsplit]
  simp [Nat.add_comm]

end Roster

end NodeWatch
