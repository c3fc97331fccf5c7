import Mathlib.Data.List.Induction
import Mathlib.Data.List.Nodup
import Mathlib.Tactic.Common
import NodeWatch.Roster

/-!
What events tell about the members.

A picture holds the data of the members under their identities. Each event is a change of the
picture, and not every event is a change of every picture. The events of a round change the picture
of the roster before it into that of the roster after it.
-/

namespace NodeWatch

/-- What is observed of a node under an identity, the time left out. -/
abbrev Observation.Data : Type :=
  String × Net.Address × UInt16 × String × Attributes × List String

abbrev Picture : Type := String → Option Observation.Data

namespace Picture

def empty : Picture := fun _ => none

def set (p : Picture) (id : String) (d : Option Observation.Data) : Picture :=
  fun x => if x = id then d else p x

/-- The picture after an event. Only an absent identity can be discovered, only data that are not
the same can be an update, and only what is there can be lost, with the data it had. -/
def after? (p : Picture) (e : Event) : Option Picture :=
  match e.kind, p e.node.id with
  | .discovered, none => some (p.set e.node.id (some e.node.data))
  | .updated, some d => if d = e.node.data then none else some (p.set e.node.id (some e.node.data))
  | .lost, some d => if d = e.node.data then some (p.set e.node.id none) else none
  | _, _ => none

/-- The picture after events in their order; none if one of them is no change. -/
def replay? (p : Picture) (es : List Event) : Option Picture := es.foldlM after? p

@[simp] lemma replay?_nil (p : Picture) : p.replay? [] = some p := rfl

@[simp] lemma replay?_cons (p : Picture) (e : Event) (es : List Event) :
    p.replay? (e :: es) = (p.after? e).bind (·.replay? es) := rfl

lemma replay?_append (p : Picture) (es fs : List Event) :
    p.replay? (es ++ fs) = (p.replay? es).bind (·.replay? fs) :=
  List.foldlM_append

/-- A beginning of events that are changes consists of changes. -/
lemma replay?_of_append {p q : Picture} {es fs : List Event}
    (h : p.replay? (es ++ fs) = some q) : ∃ r, p.replay? es = some r := by
  rw [replay?_append] at h
  obtain ⟨r, hr, -⟩ := Option.bind_eq_some_iff.mp h
  exact ⟨r, hr⟩

lemma replay?_concat (p : Picture) (es : List Event) (e : Event) :
    p.replay? (es ++ [e]) = (p.replay? es).bind (·.after? e) := by
  simp [replay?_append]

/-- An event changes nothing but the data under its identity. -/
lemma after?_eq_some {p q : Picture} {e : Event} (h : p.after? e = some q) :
    q = p.set e.node.id (if e.kind = .lost then none else some e.node.data) := by
  unfold after? at h
  split at h
  next hk _ => simpa [hk] using h.symm
  next hk _ =>
    split at h
    · simp at h
    · simpa [hk] using h.symm
  next hk _ =>
    split at h
    · simpa [hk] using h.symm
    · simp at h
  next => simp at h

/-- Whatever data are in the picture, the last event under their identity has told them. -/
lemma exists_of_replay? {es : List Event} {p : Picture} (h : empty.replay? es = some p)
    {id : String} {d : Observation.Data} (hd : p id = some d) :
    ∃ front e back, es = front ++ e :: back ∧ e.kind ≠ .lost ∧ e.node.id = id ∧
      e.node.data = d ∧ ∀ x ∈ back, x.node.id ≠ id := by
  induction es using List.reverseRecOn generalizing p with
  | nil =>
    rw [replay?_nil] at h
    rw [← Option.some.inj h] at hd
    simp [empty] at hd
  | append_singleton es e ih =>
    rw [replay?_concat] at h
    obtain ⟨q, hq, he⟩ := Option.bind_eq_some_iff.mp h
    rw [after?_eq_some he, set] at hd
    split at hd
    next hid =>
      by_cases hk : e.kind = .lost
      · simp [hk] at hd
      · rw [if_neg hk] at hd
        exact ⟨es, e, [], rfl, hk, hid.symm, Option.some.inj hd, by simp⟩
    next hid =>
      obtain ⟨front, x, back, rfl, hk, hx, hdata, hback⟩ := ih hq hd
      refine ⟨front, x, back ++ [e], by simp, hk, hx, hdata, fun y hy => ?_⟩
      rcases List.mem_append.mp hy with hy | hy
      · exact hback y hy
      · rw [List.mem_singleton.mp hy]
        exact Ne.symm hid

/-- Data that are in the picture stay there until the next event under their identity, which
changes them or tells that they are lost. -/
lemma next_of_replay? {es : List Event} {p q : Picture} (h : p.replay? es = some q)
    {id : String} {d : Observation.Data} (hd : p id = some d) :
    q id = some d ∨ ∃ x ∈ es, x.node.id = id ∧
      (x.kind = .updated ∨ x.kind = .lost ∧ x.node.data = d) := by
  induction es generalizing p with
  | nil =>
    rw [replay?_nil] at h
    exact .inl (Option.some.inj h ▸ hd)
  | cons x es ih =>
    rw [replay?_cons] at h
    obtain ⟨r, hr, hrest⟩ := Option.bind_eq_some_iff.mp h
    by_cases hid : x.node.id = id
    · refine .inr ⟨x, by simp, hid, ?_⟩
      unfold after? at hr
      rw [hid, hd] at hr
      cases hk : x.kind with
      | discovered => simp [hk] at hr
      | updated => exact .inl rfl
      | lost =>
        simp only [hk, Option.ite_none_right_eq_some] at hr
        exact .inr ⟨rfl, hr.1.symm⟩
    · have hkeep : r id = some d := by
        rw [after?_eq_some hr, set, if_neg (Ne.symm hid), hd]
      rcases ih hrest hkeep with hq | ⟨y, hy, hrest⟩
      · exact .inl hq
      · exact .inr ⟨y, List.mem_cons_of_mem _ hy, hrest⟩

/-- Distinct identities may be lost in any order. -/
lemma replay?_lost (os : List Observation) (hn : (os.map (·.id)).Nodup) (p : Picture)
    (hp : ∀ o ∈ os, p o.id = some o.data) :
    p.replay? (os.map (⟨.lost, ·⟩)) =
      some fun x => if x ∈ os.map (·.id) then none else p x := by
  induction os generalizing p with
  | nil => simp
  | cons o os ih =>
    obtain ⟨ho, hos⟩ := List.nodup_cons.mp hn
    have hstep : p.after? ⟨.lost, o⟩ = some (p.set o.id none) := by
      simp [after?, hp o (by simp)]
    have hrest : ∀ o' ∈ os, p.set o.id none o'.id = some o'.data := by
      intro o' ho'
      have hne : o'.id ≠ o.id := fun h => ho (List.mem_map.mpr ⟨o', ho', h⟩)
      simp [set, hne, hp o' (by simp [ho'])]
    rw [List.map_cons, replay?_cons, hstep, Option.bind_some, ih hos _ hrest]
    congr 1
    funext x
    by_cases hx : x = o.id <;> simp [set, hx]

end Picture

namespace Roster

/-- The members have distinct identities. -/
def Distinct (r : Roster) : Prop := (r.members.map (·.node.id)).Nodup

/-- The data of the members. -/
def picture (r : Roster) : Picture := fun id => (r.find? id).map (·.node.data)

@[simp] lemma picture_empty : empty.picture = Picture.empty := rfl

lemma distinct_empty : empty.Distinct := List.nodup_nil

lemma find?_some {r : Roster} {id : String} {m : Member} (h : r.find? id = some m) :
    m ∈ r.members ∧ m.node.id = id :=
  ⟨List.mem_of_find?_eq_some h, by simpa using List.find?_some h⟩

lemma find?_none {r : Roster} {id : String} (h : r.find? id = none) :
    id ∉ r.members.map (·.node.id) := by
  rw [List.mem_map]
  rintro ⟨m, hm, rfl⟩
  exact absurd (List.find?_eq_none.mp h m hm) (by simp)

lemma find?_of_mem {r : Roster} (h : r.Distinct) {m : Member} (hm : m ∈ r.members) :
    r.find? m.node.id = some m := by
  cases hf : r.find? m.node.id with
  | none => exact absurd (List.mem_map_of_mem hm) (find?_none hf)
  | some k =>
    obtain ⟨hk, hid⟩ := find?_some hf
    rw [List.inj_on_of_nodup_map h hk hm hid]

/-! ### Observations -/

/-- The member that an observation brings in or renews. -/
def renewed (r : Roster) (o : Observation) (pinned : Bool) (now : Nat) : Member :=
  ⟨o, pinned, ((r.find? o.id).map (·.firstSeen)).getD o.lastSeen, now⟩

lemma find?_observe (r : Roster) (o : Observation) (pinned : Bool) (now : Nat) (id : String) :
    (r.observe o pinned now).2.find? id =
      if id = o.id then some (r.renewed o pinned now) else r.find? id := by
  unfold observe renewed
  cases hf : r.find? o.id with
  | none =>
    have habs : ∀ m ∈ r.members, m.node.id ≠ o.id :=
      fun m hm he => find?_none hf (he ▸ List.mem_map_of_mem hm)
    by_cases hid : id = o.id
    · subst hid
      have : r.members.find? (fun m => decide (m.node.id = o.id)) = none := hf
      simp [find?, List.find?_append, this]
    · simp [find?, List.find?_append, hid, Ne.symm hid]
  | some k =>
    obtain ⟨hk, hkid⟩ := find?_some hf
    simp only [find?, modify, List.find?_map]
    by_cases hid : id = o.id
    · subst hid
      have hsame : ((fun m : Member => decide (m.node.id = o.id)) ∘ fun m =>
          if m.node.id = o.id then { m with node := o, pinned, seenAt := now } else m) =
          fun m => decide (m.node.id = o.id) := by
        funext m
        by_cases hm : m.node.id = o.id <;> simp [hm]
      have : r.members.find? (fun m => decide (m.node.id = o.id)) = some k := hf
      rw [hsame, if_pos rfl, this]
      simp [hkid]
    · have hsame : ((fun m : Member => decide (m.node.id = id)) ∘ fun m =>
          if m.node.id = o.id then { m with node := o, pinned, seenAt := now } else m) =
          fun m => decide (m.node.id = id) := by
        funext m
        by_cases hm : m.node.id = o.id <;> simp [hm, Ne.symm hid]
      rw [hsame, if_neg hid]
      cases hf' : r.members.find? (fun m => decide (m.node.id = id)) with
      | none => rfl
      | some m =>
        have hmid : m.node.id = id := by simpa using List.find?_some hf'
        simp [hmid, hid]

lemma ids_observe (r : Roster) (o : Observation) (pinned : Bool) (now : Nat) :
    (r.observe o pinned now).2.members.map (·.node.id) =
      if (r.find? o.id).isSome then r.members.map (·.node.id)
      else r.members.map (·.node.id) ++ [o.id] := by
  unfold observe
  cases hf : r.find? o.id with
  | none => simp
  | some k =>
    simp only [modify, List.map_map, Option.isSome_some, if_true]
    refine List.map_congr_left fun m _ => ?_
    by_cases hm : m.node.id = o.id <;> simp [hm]

lemma Distinct.observe {r : Roster} (h : r.Distinct) (o : Observation) (pinned : Bool)
    (now : Nat) : (r.observe o pinned now).2.Distinct := by
  unfold Distinct
  rw [ids_observe]
  cases hf : r.find? o.id with
  | none =>
    have habs := find?_none hf
    simp only [Option.isSome_none, Bool.false_eq_true, if_false]
    exact List.nodup_append.mpr ⟨h, by simp, fun a ha b hb he => habs (by simp_all)⟩
  | some k => rw [Option.isSome_some, if_pos rfl]; exact h

/-- An observation is told as the change it is, and not told if it changes nothing. -/
lemma replay?_observe (r : Roster) (o : Observation) (pinned : Bool) (now : Nat) :
    r.picture.replay? ((r.observe o pinned now).1.map (⟨·, o⟩)).toList =
      some (r.observe o pinned now).2.picture := by
  have hpic : (r.observe o pinned now).2.picture = r.picture.set o.id (some o.data) := by
    funext id
    simp only [picture, find?_observe, Picture.set]
    split <;> simp [renewed]
  rw [hpic]
  unfold observe
  cases hf : r.find? o.id with
  | none =>
    have hp : r.picture o.id = none := by simp [picture, hf]
    simp [Picture.after?, hp]
  | some k =>
    have hp : r.picture o.id = some k.node.data := by simp [picture, hf]
    by_cases hd : k.node.data = o.data
    · have hsame : r.picture.set o.id (some o.data) = r.picture := by
        funext id
        by_cases hid : id = o.id <;> simp [Picture.set, hid, hp, hd]
      simp [Observation.differsFrom, hd, hsame]
    · simp [Observation.differsFrom, hd, Picture.after?, hp]

lemma Distinct.observeAll {r : Roster} (h : r.Distinct) (pinned : Bool) (now : Nat)
    (os : List Observation) : (r.observeAll pinned now os).2.Distinct := by
  induction os generalizing r with
  | nil => exact h
  | cons o os ih => exact ih (h.observe o pinned now)

lemma replay?_observeAll (r : Roster) (pinned : Bool) (now : Nat) (os : List Observation) :
    r.picture.replay? (r.observeAll pinned now os).1 =
      some (r.observeAll pinned now os).2.picture := by
  induction os generalizing r with
  | nil => rfl
  | cons o os ih =>
    simp only [observeAll, Picture.replay?_append, replay?_observe, Option.bind_some]
    exact ih _

/-- Each observation is told at most once, in its turn. -/
lemma sublist_observeAll (r : Roster) (pinned : Bool) (now : Nat) (os : List Observation) :
    ((r.observeAll pinned now os).1.map (·.node)).Sublist os := by
  induction os generalizing r with
  | nil => exact .refl _
  | cons o os ih =>
    rw [observeAll, List.map_append]
    cases (r.observe o pinned now).1 with
    | none => exact (ih _).cons o
    | some k => exact (ih _).cons_cons o

/-- Only what is observed is told. -/
lemma mem_observeAll (r : Roster) (pinned : Bool) (now : Nat) (os : List Observation) :
    ∀ e ∈ (r.observeAll pinned now os).1, e.node ∈ os := fun _ he =>
  (sublist_observeAll r pinned now os).subset (List.mem_map_of_mem he)

/-- An observation is told if and only if it is not what the picture has under its identity. -/
lemma observe_eq_none_iff (r : Roster) (o : Observation) (pinned : Bool) (now : Nat) :
    (r.observe o pinned now).1 = none ↔ r.picture o.id = some o.data := by
  unfold observe picture
  cases hf : r.find? o.id with
  | none => simp
  | some k =>
    by_cases hd : k.node.data = o.data <;> simp [Observation.differsFrom, hd]

/-- Of distinct identities, those are told whose data are not in the picture. -/
lemma told_observeAll_iff {os : List Observation} (hn : (os.map (·.id)).Nodup) (r : Roster)
    (pinned : Bool) (now : Nat) {n : Observation} (hmem : n ∈ os) :
    (∃ e ∈ (r.observeAll pinned now os).1, e.node = n) ↔ r.picture n.id ≠ some n.data := by
  induction os generalizing r with
  | nil => simp at hmem
  | cons o os ih =>
    obtain ⟨ho, hos⟩ := List.nodup_cons.mp hn
    have hnodes : ∀ e ∈ ((r.observe o pinned now).2.observeAll pinned now os).1,
        e.node ∈ os := fun e he => mem_observeAll _ _ _ _ e he
    simp only [observeAll, List.mem_append, Option.mem_toList, Option.map_eq_some_iff]
    rcases List.mem_cons.mp hmem with rfl | hmem
    · rw [ne_eq, ← observe_eq_none_iff r n pinned now]
      constructor
      · rintro ⟨e, ⟨k, hk, rfl⟩ | he, hen⟩
        · simp [hk]
        · exact absurd (List.mem_map_of_mem (hen ▸ hnodes e he)) ho
      · intro hsome
        obtain ⟨k, hk⟩ := Option.ne_none_iff_exists'.mp hsome
        exact ⟨⟨k, n⟩, .inl ⟨k, hk, rfl⟩, rfl⟩
    · have hne : n.id ≠ o.id := fun h => ho (List.mem_map.mpr ⟨n, hmem, h⟩)
      have hpic : (r.observe o pinned now).2.picture n.id = r.picture n.id := by
        simp only [picture, find?_observe]
        rw [if_neg hne]
      rw [← hpic, ← ih hos _ hmem]
      constructor
      · rintro ⟨e, ⟨k, -, rfl⟩ | he, hen⟩
        · exact absurd (congrArg (·.id) hen.symm) hne
        · exact ⟨e, he, hen⟩
      · rintro ⟨e, he, hen⟩
        exact ⟨e, .inr he, hen⟩

/-- Observations give up nobody. -/
lemma kind_observeAll (r : Roster) (pinned : Bool) (now : Nat) (os : List Observation) :
    ∀ e ∈ (r.observeAll pinned now os).1, e.kind ≠ .lost := by
  induction os generalizing r with
  | nil => simp [observeAll]
  | cons o os ih =>
    intro e he
    simp only [observeAll, List.mem_append, Option.mem_toList, Option.map_eq_some_iff] at he
    rcases he with ⟨k, hk, rfl⟩ | he
    · unfold observe at hk
      split at hk
      · split at hk <;> simp_all
        subst hk; simp
      · simp_all
        subst hk; simp
    · exact ih _ e he

/-! ### Sweeps -/

section

variable {r : Roster} {threshold now : Nat} {places : Places}

/-- The places decide only in which order it is told who is given up. -/
lemma mem_given_up {o : Observation} : o ∈ (r.sweep threshold now places).1 ↔
    ∃ m ∈ r.members, m.isStale threshold now = true ∧ m.node = o := by
  simp [sweep, and_assoc]

lemma Distinct.sweep (h : r.Distinct) (threshold now : Nat) (places : Places) :
    (r.sweep threshold now places).2.Distinct :=
  h.sublist (List.filter_sublist.map _)

/-- Whoever is given up is found no more, since nobody else has the identity. -/
lemma picture_sweep_of_stale (h : r.Distinct) {m : Member} (hm : m ∈ r.members)
    (hs : m.isStale threshold now = true) :
    (r.sweep threshold now places).2.picture m.node.id = none := by
  cases hf : (r.sweep threshold now places).2.find? m.node.id with
  | none => simp [picture, hf]
  | some k =>
    obtain ⟨hk, hid⟩ := find?_some hf
    simp only [Roster.sweep, List.mem_filter] at hk
    have : k = m := List.inj_on_of_nodup_map h hk.1 hm hid
    simp_all

lemma picture_sweep_of_not_stale (h : r.Distinct) {id : String}
    (hid : ∀ m ∈ r.members, m.node.id = id → m.isStale threshold now = false) :
    (r.sweep threshold now places).2.picture id = r.picture id := by
  cases hf : r.find? id with
  | none =>
    have : (r.sweep threshold now places).2.find? id = none := by
      refine List.find?_eq_none.mpr fun m hm => ?_
      exact List.find?_eq_none.mp hf m (List.mem_filter.mp hm).1
    simp [picture, hf, this]
  | some m =>
    obtain ⟨hm, rfl⟩ := find?_some hf
    have hm' : m ∈ (r.sweep threshold now places).2.members := by
      simp [Roster.sweep, hm, hid m hm rfl]
    simp [picture, hf, find?_of_mem (h.sweep threshold now places) hm']

/-- Nobody is given up twice by one sweep. -/
lemma Distinct.nodup_sweep (h : r.Distinct) (threshold now : Nat) (places : Places) :
    ((r.sweep threshold now places).1.map (·.id)).Nodup := by
  have hperm := (inPlaces_perm places (fun m : Member => m.node.id)
    (r.members.filter (·.isStale threshold now))).map (·.node.id)
  rw [Roster.sweep, List.map_map]
  exact hperm.nodup_iff.mpr (h.sublist (List.filter_sublist.map _))

lemma replay?_sweep (h : r.Distinct) (threshold now : Nat) (places : Places) :
    r.picture.replay? ((r.sweep threshold now places).1.map (⟨.lost, ·⟩)) =
      some (r.sweep threshold now places).2.picture := by
  have hp : ∀ o ∈ (r.sweep threshold now places).1, r.picture o.id = some o.data := by
    intro o ho
    obtain ⟨m, hm, -, rfl⟩ := mem_given_up.mp ho
    simp [picture, find?_of_mem h hm]
  rw [Picture.replay?_lost _ (h.nodup_sweep threshold now places) _ hp]
  congr 1
  funext x
  split
  next hx =>
    obtain ⟨o, ho, rfl⟩ := List.mem_map.mp hx
    obtain ⟨m, hm, hs, rfl⟩ := mem_given_up.mp ho
    exact (picture_sweep_of_stale h hm hs).symm
  next hx =>
    refine (picture_sweep_of_not_stale h fun m hm hid => ?_).symm
    by_contra hs
    exact hx (List.mem_map.mpr ⟨m.node, mem_given_up.mpr ⟨m, hm, by simpa using hs, rfl⟩, hid⟩)

end

end Roster

end NodeWatch
