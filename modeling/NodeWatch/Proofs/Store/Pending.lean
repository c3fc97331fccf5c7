import NodeWatch.Proofs.Store.Advance
import NodeWatch.Proofs.Time.Order

/-!
Signs of life that programs are about to write.

A program that has found nothing else to change goes on to write a sign of life, and what others
write in between makes no difference to that. So it can be thought to have written it at once: the
ledger ahead of the programs is the ledger as it is when all of them have.
-/

namespace NodeWatch.Store

/-- A change of the last sign of life alone. -/
def OnlySeen (f : Record → Record) : Prop := ∀ r, ∃ t, f r = { r with lastSeen := t }

variable {α : Type} {l : Ledger} {id : String} {t now : Time.Instant} {f g : Record → Record}
  {r : Record}

lemma OnlySeen.keepsKey (h : OnlySeen f) : KeepsKey f := by
  intro r
  obtain ⟨t, ht⟩ := h r
  rw [ht]
  rfl

lemma onlySeen_touched (t : Time.Instant) : OnlySeen (Record.touched t) := fun _ => ⟨_, rfl⟩

lemma OnlySeen.ite (h : OnlySeen f) (id : String) :
    OnlySeen fun r => if r.id = id then f r else r := by
  intro r
  simp only
  split
  · exact h r
  · exact ⟨r.lastSeen, rfl⟩

lemma OnlySeen.comp (hf : OnlySeen f) (hg : OnlySeen g) : OnlySeen (g ∘ f) := by
  intro r
  obtain ⟨t, ht⟩ := hf r
  obtain ⟨u, hu⟩ := hg (f r)
  refine ⟨u, ?_⟩
  rw [Function.comp_apply, hu, ht]

/-! ### Changes in either order -/

lemma Medium.revise_touched (m : Medium) (now t : Time.Instant) (p : Patch) (r : Record) :
    m.revise now p (Record.touched t r) = Record.touched t (m.revise now p r) := by
  have hmemory : ({ p.apply (Record.touched t r) with version := r.version + 1, updatedAt := now } :
      Record) = Record.touched t { p.apply r with version := r.version + 1, updatedAt := now } := by
    cases hl : p.lastSeen with
    | none => simp [Patch.apply, Record.touched, hl]
    | some u => simp [Patch.apply, Record.touched, hl, Time.Instant.latest_right_comm]
  cases m with
  | memory _ => exact hmemory
  | table =>
    simp only [revise, read]
    rw [← Record.asRead_touched, ← hmemory]
    rfl

lemma Record.touched_comm (t u : Time.Instant) (r : Record) :
    touched t (touched u r) = touched u (touched t r) := by
  simp [touched, Time.Instant.latest_right_comm]

lemma Ledger.amend_comm (hf : KeepsKey f) (hg : KeepsKey g) (h : ∀ r, f (g r) = g (f r))
    (i j : String) (l : Ledger) : (l.amend i f).amend j g = (l.amend j g).amend i f := by
  simp only [Ledger.amend, Store.amend, List.map_map]
  congr 2
  funext r
  simp only [Function.comp_apply]
  have hfid := hf.id_eq r
  have hgid := hg.id_eq r
  by_cases hi : r.id = i
  · rw [if_pos hi]
    by_cases hj : r.id = j
    · rw [if_pos hj, if_pos (hfid.trans hj), if_pos (hgid.trans hi), h]
    · rw [if_neg hj, if_neg (hfid ▸ hj), if_pos hi]
  · rw [if_neg hi]
    split
    · rw [if_neg (hgid ▸ hi)]
    · rfl

lemma Ledger.amend_add (l : Ledger) (h : r.id ≠ id) :
    (l.add r).amend id f = (l.amend id f).add r := by
  have hread : ¬ (l.medium.read r).id = id := by
    rw [Medium.read_id]
    exact h
  simp only [Ledger.amend, Ledger.add, Store.amend, List.map_append, List.map_cons, List.map_nil]
  rw [if_neg hread]

/-! ### Ahead of programs -/

/-- The sign of life that a program writes next. -/
def pending? : Session α → Option (String × Time.Instant)
  | .ask (.touch id t) _ => some (id, t)
  | _ => none

namespace Ledger

/-- The ledger when a program has written its sign of life. -/
def after (l : Ledger) (p : Session α) : Ledger :=
  match pending? p with
  | some (id, t) => l.amend id (Record.touched t)
  | none => l

/-- The ledger when all of the programs have. -/
def ahead (l : Ledger) (ps : List (Session α)) : Ledger := ps.foldl after l

lemma after_of_none {p : Session α} (h : pending? p = none) : l.after p = l := by
  rw [after, h]

lemma after_of_some {p : Session α} (h : pending? p = some (id, t)) :
    l.after p = l.amend id (Record.touched t) := by
  rw [after, h]

lemma ahead_hom (F : Ledger → Ledger) (h : ∀ l (p : Session α), (F l).after p = F (l.after p))
    (l : Ledger) (ps : List (Session α)) : (F l).ahead ps = F (l.ahead ps) :=
  List.foldl_hom F h

lemma after_after (l : Ledger) (p q : Session α) : (l.after p).after q = (l.after q).after p := by
  rcases hp : pending? p with _ | ⟨i, t⟩
  · rw [after_of_none hp, after_of_none hp]
  · rcases hq : pending? q with _ | ⟨j, u⟩
    · rw [after_of_none hq, after_of_none hq]
    · rw [after_of_some hp, after_of_some hq, after_of_some hq, after_of_some hp]
      exact amend_comm (keepsKey_touched t) (keepsKey_touched u) (Record.touched_comm t u) i j l

/-- A program that goes on gives back its place among the others. -/
lemma ahead_set (ps : List (Session α)) {i : Nat} {p : Session α} (h : ps[i]? = some p)
    (q : Session α) (l : Ledger) : (l.ahead (ps.set i q)).after p = (l.ahead ps).after q := by
  induction ps generalizing i l with
  | nil => simp at h
  | cons x ps ih =>
    cases i with
    | zero =>
      obtain rfl : x = p := by simpa using h
      change ((l.after q).ahead ps).after x = ((l.after x).ahead ps).after q
      rw [← ahead_hom (·.after x) (fun l y => l.after_after x y),
        ← ahead_hom (·.after q) (fun l y => l.after_after q y), after_after]
    | succ i =>
      simp only [List.set_cons_succ, ahead, List.foldl_cons]
      exact ih (by simpa using h) (l.after x)

lemma ahead_amend (hf : KeepsKey f) (h : ∀ t r, f (Record.touched t r) = Record.touched t (f r))
    (id : String) (l : Ledger) (ps : List (Session α)) :
    (l.amend id f).ahead ps = (l.ahead ps).amend id f := by
  refine ahead_hom (·.amend id f) (fun l p => ?_) l ps
  rcases hp : pending? p with _ | ⟨j, t⟩
  · rw [after_of_none hp, after_of_none hp]
  · rw [after_of_some hp, after_of_some hp]
    exact amend_comm hf (keepsKey_touched t) (h t) id j l

lemma ahead_add (l : Ledger) {ps : List (Session α)}
    (h : ∀ p ∈ ps, ∀ id t, pending? p = some (id, t) → r.id ≠ id) :
    (l.add r).ahead ps = (l.ahead ps).add r := by
  induction ps generalizing l with
  | nil => rfl
  | cons p ps ih =>
    simp only [ahead, List.foldl_cons]
    have hadd : (l.add r).after p = (l.after p).add r := by
      rcases hp : pending? p with _ | ⟨id, t⟩
      · rw [after_of_none hp, after_of_none hp]
      · rw [after_of_some hp, after_of_some hp, amend_add l (h p (by simp) id t hp)]
    rw [hadd]
    exact ih (l.after p) fun q hq => h q (by simp [hq])

/-- Ahead of programs a ledger says what it says, but for the signs of life. -/
lemma ahead_eq (l : Ledger) (ps : List (Session α)) :
    ∃ f, OnlySeen f ∧ l.ahead ps = { l with records := l.records.map f } := by
  induction ps generalizing l with
  | nil => exact ⟨id, fun r => ⟨r.lastSeen, rfl⟩, by simp [ahead]⟩
  | cons p ps ih =>
    obtain ⟨f, hf, hl⟩ := ih (l.after p)
    rcases hp : pending? p with _ | ⟨j, t⟩
    · rw [after_of_none hp] at hl
      refine ⟨f, hf, ?_⟩
      rw [ahead, List.foldl_cons, after_of_none hp]
      exact hl
    · rw [after_of_some hp] at hl
      refine ⟨_, ((onlySeen_touched t).ite j).comp hf, ?_⟩
      rw [ahead, List.foldl_cons, after_of_some hp]
      exact hl.trans (by simp [amend, Store.amend])

lemma Sound.of_onlySeen (h : l.Sound) (hf : OnlySeen f) :
    Ledger.Sound { l with records := l.records.map f } where
  orderly := h.orderly.map hf.keepsKey
  fresh := by
    intro k hk r hr
    obtain ⟨s, hs, rfl⟩ := List.mem_map.mp hr
    rw [hf.keepsKey.id_eq]
    exact h.fresh k hk s hs
  small := by
    intro hm r hr
    obtain ⟨s, hs, rfl⟩ := List.mem_map.mp hr
    obtain ⟨t, ht⟩ := hf s
    rw [ht]
    exact h.small hm s hs

lemma Sound.ahead (h : l.Sound) (ps : List (Session α)) : (l.ahead ps).Sound := by
  obtain ⟨f, hf, hl⟩ := l.ahead_eq ps
  rw [hl]
  exact h.of_onlySeen hf

section

variable {ps : List (Session α)} {a : Net.Address}

@[simp] lemma ahead_medium : (l.ahead ps).medium = l.medium := by
  obtain ⟨f, -, hl⟩ := l.ahead_eq ps
  rw [hl]

@[simp] lemma ahead_made : (l.ahead ps).made = l.made := by
  obtain ⟨f, -, hl⟩ := l.ahead_eq ps
  rw [hl]

lemma ahead_liveAt_none (h : liveAt l.records a = none) :
    liveAt (l.ahead ps).records a = none := by
  obtain ⟨f, hf, hl⟩ := l.ahead_eq ps
  rw [hl, liveAt_map hf.keepsKey, h]
  rfl

lemma ahead_liveAt_some (ps : List (Session α)) (h : liveAt l.records a = some r) :
    ∃ s, liveAt (l.ahead ps).records a = some s ∧ s.id = r.id ∧ s.version = r.version ∧
      r.Agrees s := by
  obtain ⟨f, hf, hl⟩ := l.ahead_eq ps
  obtain ⟨t, ht⟩ := hf r
  refine ⟨f r, by rw [hl, liveAt_map hf.keepsKey, h]; rfl, ?_⟩
  rw [ht]
  exact ⟨rfl, rfl, rfl, rfl, rfl⟩

lemma ahead_named {name : String} (h : ∃ r ∈ l.records, r.isLive = true ∧ r.name = name) :
    ∃ s ∈ (l.ahead ps).records, s.isLive = true ∧ s.name = name := by
  obtain ⟨f, hf, hl⟩ := l.ahead_eq ps
  obtain ⟨r, hr, hlive, rfl⟩ := h
  rw [hl]
  exact ⟨f r, List.mem_map_of_mem hr, by rw [hf.keepsKey.isLive_eq, hlive], hf.keepsKey.name_eq r⟩

lemma ahead_clash? : (l.ahead ps).medium.clash? (l.ahead ps).records r =
    l.medium.clash? l.records r := by
  obtain ⟨f, hf, hl⟩ := l.ahead_eq ps
  rw [hl]
  exact Medium.clash?_map hf.keepsKey

lemma ahead_next (n : NewRecord) : (l.ahead ps).next now n = l.next now n := by
  rw [next, next, ahead_made]

end

end Ledger

end NodeWatch.Store
