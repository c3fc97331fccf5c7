import NodeWatch.Bus.Exchange
import NodeWatch.Proofs.Bus.Queue

/-!
Runs of a bus at work, seen by one observer.

Of all that happens, an observer is concerned by what is offered to it, by its worker, and by its
leaving. These are its shares of a run. A step changes an observer by its share of it and by nothing
else.
-/

namespace NodeWatch

namespace Exchange

structure Moment where
  before : Exchange
  action : Action

/-- The moments from one state to another, the last first. -/
inductive Run (x₀ : Exchange) : List Moment → Exchange → Prop where
  | start : Run x₀ [] x₀
  | step {past : List Moment} {x x' : Exchange} {a : Action} (run : Run x₀ past x)
    (made : x.step? a = some x') : Run x₀ (⟨x, a⟩ :: past) x'

/-- What concerns one observer. -/
inductive Share where
  | offered (e : Event)
  | gone
  | taken
  | finished

/-- The share that an observer has in a moment, if any. -/
def Moment.share? (id : Nat) (m : Moment) : Option Share :=
  match m.action, m.before.posting with
  | .offer, some ⟨e, j :: _, _⟩ => if j = id then some (.offered e) else none
  | .unsubscribe j, _ => if j = id then some .gone else none
  | .take j, _ => if j = id then some .taken else none
  | .finish j, _ => if j = id then some .finished else none
  | _, _ => none

/-- The shares that an observer has in a run, the last first. -/
def shares (id : Nat) (past : List Moment) : List Share := past.filterMap (Moment.share? id)

/-- An observer after a share of its own. -/
def after (capacity : Nat) (o : Observer) : Share → Observer
  | .offered e => if o.queue.length < capacity then { o with queue := o.queue ++ [e] } else o
  | .gone => { o with subscribed := false }
  | .taken => { o with queue := o.queue.tail, handling := o.queue.head? }
  | .finished => { o with handling := none }

/-- Its worker is idle if it takes an event, and is not if it gets through with one. -/
def Possible (o : Observer) : Share → Prop
  | .taken => o.handling = none ∧ o.queue ≠ []
  | .finished => o.handling ≠ none
  | _ => True

variable {x₀ x x' x'' : Exchange} {a : Action} {past later : List Moment} {id : Nat} {o : Observer}

lemma Run.append (h : Run x₀ past x) (hlater : Run x later x') : Run x₀ (later ++ past) x' := by
  induction hlater with
  | start => exact h
  | step run made ih => exact ih.step made

/-- A run through a moment passes the state after it. -/
lemma Run.split {m : Moment} (h : Run x₀ (later ++ m :: past) x) :
    ∃ x', Run x₀ past m.before ∧ m.before.step? m.action = some x' ∧ Run x' later x := by
  induction later generalizing x with
  | nil =>
    cases h with
    | step run made => exact ⟨x, run, made, .start⟩
  | cons k later ih =>
    cases h with
    | step run made =>
      obtain ⟨x', hpast, hm, hlater⟩ := ih run
      exact ⟨x', hpast, hm, hlater.step made⟩

/-! ### What one step does -/

/-- The steps there are, each with what it needs. -/
inductive Steps (x : Exchange) : Action → Exchange → Prop where
  | publish {e : Event} (idle : x.posting = none) :
    Steps x (.publish e) ⟨x.bus, some ⟨e, x.bus.subscribed.map (·.id), 0⟩⟩
  | offer {e : Event} {j n : Nat} {rest : List Nat} (posting : x.posting = some ⟨e, j :: rest, n⟩) :
    Steps x .offer
      ⟨(x.bus.offer j e).2, some ⟨e, rest, if (x.bus.offer j e).1 then n + 1 else n⟩⟩
  | conclude {e : Event} {n : Nat} (posting : x.posting = some ⟨e, [], n⟩) :
    Steps x .conclude ⟨x.bus, none⟩
  | subscribe {name : String} (idle : x.posting = none) :
    Steps x (.subscribe name) ⟨(x.bus.subscribe name).2, none⟩
  | unsubscribe {j : Nat} (idle : x.posting = none) :
    Steps x (.unsubscribe j) ⟨(x.bus.unsubscribe j).2, none⟩
  | take {j : Nat} {e : Event} {bus : Bus} (found : x.bus.take? j = some (e, bus)) :
    Steps x (.take j) ⟨bus, x.posting⟩
  | finish {j : Nat} {k : Observer} (found : x.bus.find? j = some k) (busy : k.handling ≠ none) :
    Steps x (.finish j) ⟨x.bus.finish j, x.posting⟩

lemma steps_of_step? (made : x.step? a = some x') : Steps x a x' := by
  cases a with
  | publish e =>
    simp only [step?] at made
    split at made
    next idle => exact Option.some.inj made ▸ .publish idle
    next => simp at made
  | offer =>
    simp only [step?] at made
    split at made
    next e j rest n posting => exact Option.some.inj made ▸ .offer posting
    next => simp at made
  | conclude =>
    simp only [step?] at made
    split at made
    next e n posting => exact Option.some.inj made ▸ .conclude posting
    next => simp at made
  | subscribe name =>
    simp only [step?, Option.ite_none_right_eq_some, Option.isNone_iff_eq_none,
      Option.some.injEq] at made
    obtain ⟨idle, rfl⟩ := made
    rw [idle]
    exact .subscribe idle
  | unsubscribe j =>
    simp only [step?, Option.ite_none_right_eq_some, Option.isNone_iff_eq_none,
      Option.some.injEq] at made
    obtain ⟨idle, rfl⟩ := made
    rw [idle]
    exact .unsubscribe idle
  | take j =>
    simp only [step?, Option.map_eq_some_iff, Prod.exists] at made
    obtain ⟨e, bus, found, rfl⟩ := made
    exact .take found
  | finish j =>
    simp only [step?] at made
    split at made
    next i name subscribed queue e found =>
      exact Option.some.inj made ▸ .finish found (by simp)
    next => simp at made

lemma offer_capacity (b : Bus) (j : Nat) (e : Event) : (b.offer j e).2.capacity = b.capacity := by
  unfold Bus.offer
  split
  · rfl
  · split <;> rfl

lemma take?_capacity {b b' : Bus} {j : Nat} {e : Event} (h : b.take? j = some (e, b')) :
    b'.capacity = b.capacity := by
  obtain ⟨-, -, -, -, -, rfl⟩ := Bus.take?_eq_some h
  rfl

lemma Steps.capacity (made : Steps x a x') : x'.bus.capacity = x.bus.capacity := by
  cases made with
  | offer posting => exact offer_capacity _ _ _
  | take found => exact take?_capacity found
  | _ => rfl

/-- Those that are there, numbered one after the other. -/
structure Orderly (b : Bus) : Prop where
  numbered : b.Numbered
  nodup : (b.observers.map (·.id)).Nodup

lemma orderly_ofCapacity (n : Nat) : Orderly (.ofCapacity n) :=
  ⟨Bus.numbered_ofCapacity n, by simp [Bus.ofCapacity]⟩

lemma Orderly.map {b : Bus} (h : Orderly b) {f : Observer → Observer} (hf : ∀ k, (f k).id = k.id) :
    Orderly { b with observers := b.observers.map f } :=
  ⟨h.numbered.map hf, by simpa [Function.comp_def, hf] using h.nodup⟩

lemma Orderly.modify {b : Bus} (h : Orderly b) (j : Nat) {f : Observer → Observer}
    (hf : ∀ k, (f k).id = k.id) : Orderly (b.modify j f) :=
  h.map fun k => by split <;> simp [hf]

lemma Orderly.subscribe {b : Bus} (h : Orderly b) (name : String) :
    Orderly (b.subscribe name).2 := by
  refine ⟨h.numbered.subscribe name, ?_⟩
  simp only [Bus.subscribe, List.map_append, List.map_cons, List.map_nil]
  refine List.nodup_append.mpr ⟨h.nodup, by simp, fun i hi j hj => ?_⟩
  obtain ⟨k, hk, rfl⟩ := List.mem_map.mp hi
  have := h.numbered k hk
  simp only [List.mem_singleton] at hj
  omega

lemma Orderly.offer {b : Bus} (h : Orderly b) (j : Nat) (e : Event) : Orderly (b.offer j e).2 := by
  unfold Bus.offer
  split
  · exact h
  · split
    · exact h.modify j fun _ => rfl
    · exact h

lemma Steps.orderly (made : Steps x a x') (h : Orderly x.bus) : Orderly x'.bus := by
  cases made with
  | publish idle => exact h
  | offer posting => exact h.offer _ _
  | conclude posting => exact h
  | subscribe idle => exact h.subscribe _
  | unsubscribe idle => exact h.modify _ fun _ => rfl
  | take found =>
    obtain ⟨-, -, -, -, -, rfl⟩ := Bus.take?_eq_some found
    exact h.modify _ fun _ => rfl
  | finish found busy => exact h.modify _ fun _ => rfl

lemma find?_id {b : Bus} (h : b.find? id = some o) : o.id = id := by
  simpa using List.find?_some h

lemma find?_offer (b : Bus) (j : Nat) (e : Event) (ho : b.find? id = some o) :
    (b.offer j e).2.find? id = some (if j = id then after b.capacity o (.offered e) else o) := by
  unfold Bus.offer
  by_cases hj : j = id
  · subst hj
    rw [ho]
    simp only [after, Bus.accepts, decide_eq_true_eq, if_true]
    split
    · simp [Bus.find?_modify, ho]
    · exact ho
  · rw [if_neg hj]
    split
    · exact ho
    · split
      · simp [Bus.find?_modify, ho, Ne.symm hj]
      · exact ho

/-- **A step changes an observer by its share of it.** -/
lemma Steps.find? (made : Steps x a x') (h : Orderly x.bus) (ho : x.bus.find? id = some o) :
    (∀ s, (⟨x, a⟩ : Moment).share? id = some s → Possible o s) ∧
    x'.bus.find? id =
      some (((⟨x, a⟩ : Moment).share? id).elim o (after x.bus.capacity o)) := by
  cases made with
  | publish idle => exact ⟨by simp [Moment.share?], ho⟩
  | @offer e j n rest posting =>
    have hshare : (⟨x, .offer⟩ : Moment).share? id =
        if j = id then some (.offered e) else none := by
      rw [Moment.share?, posting]
    have hoffer := find?_offer x.bus j e ho
    rw [hshare]
    by_cases hj : j = id
    · rw [if_pos hj] at hoffer ⊢
      exact ⟨fun s hs => by rw [← Option.some.inj hs]; trivial, hoffer⟩
    · rw [if_neg hj] at hoffer ⊢
      exact ⟨fun s hs => by simp at hs, hoffer⟩
  | conclude posting => exact ⟨by simp [Moment.share?], ho⟩
  | @subscribe name idle =>
    refine ⟨by simp [Moment.share?], ?_⟩
    have hne : id ≠ x.bus.nextId := fun he => by
      rw [h.numbered.find?_eq_none (Nat.le_of_eq he.symm)] at ho
      simp at ho
    rw [h.numbered.find?_subscribe, if_neg hne, ho]
    rfl
  | @unsubscribe j idle =>
    by_cases hj : j = id
    · subst hj
      simp [Moment.share?, Possible, Bus.unsubscribe, Bus.find?_modify, ho, after]
    · simp [Moment.share?, hj, Bus.unsubscribe, Bus.find?_modify, ho, Ne.symm hj]
  | @take j e bus found =>
    obtain ⟨k, rest, hk, hidle, hqueue, rfl⟩ := Bus.take?_eq_some found
    by_cases hj : j = id
    · subst hj
      obtain rfl := Option.some.inj (ho.symm.trans hk)
      simp [Moment.share?, Possible, Bus.find?_modify, ho, after, hidle, hqueue]
    · simp [Moment.share?, hj, Bus.find?_modify, ho, Ne.symm hj]
  | @finish j k found busy =>
    by_cases hj : j = id
    · subst hj
      obtain rfl := Option.some.inj (ho.symm.trans found)
      simp [Moment.share?, Possible, Bus.finish, Bus.find?_modify, ho, after, busy]
    · simp [Moment.share?, hj, Bus.finish, Bus.find?_modify, ho, Ne.symm hj]

/-! ### What a run keeps -/

lemma Run.capacity (h : Run x₀ past x) : x.bus.capacity = x₀.bus.capacity := by
  induction h with
  | start => rfl
  | step run made ih => rw [(steps_of_step? made).capacity, ih]

lemma Run.orderly (h : Run x₀ past x) (h₀ : Orderly x₀.bus) : Orderly x.bus := by
  induction h with
  | start => exact h₀
  | step run made ih => exact (steps_of_step? made).orderly ih

/-! ### Publishing undisturbed -/

lemma find?_of_mem {b : Bus} (hb : Orderly b) (ho : o ∈ b.observers) : b.find? o.id = some o := by
  have hall := hb.nodup
  rw [Bus.find?]
  generalize b.observers = os at ho hall
  induction os with
  | nil => simp at ho
  | cons k os ih =>
    rw [List.map_cons, List.nodup_cons] at hall
    rcases List.mem_cons.mp ho with rfl | ho
    · simp
    · have hne : k.id ≠ o.id := fun he => hall.1 (he ▸ List.mem_map_of_mem ho)
      rw [List.find?_cons_of_neg (by simpa using hne)]
      exact ih ho hall.2

/-- An event is published to those that are subscribed. -/
lemma mem_subscribed_iff {b : Bus} (hb : Orderly b) (ho : b.find? id = some o) :
    id ∈ b.subscribed.map (·.id) ↔ o.subscribed = true := by
  have hid := find?_id ho
  constructor
  · intro hmem
    obtain ⟨k, hk, rfl⟩ := List.mem_map.mp hmem
    obtain ⟨hk, hsub⟩ := List.mem_filter.mp hk
    obtain rfl := Option.some.inj (ho.symm.trans (find?_of_mem hb hk))
    exact hsub
  · intro hsub
    exact List.mem_map.mpr ⟨o, List.mem_filter.mpr ⟨List.mem_of_find?_eq_some ho, hsub⟩, hid⟩

/-- A bus after an event has been offered to some observers. -/
def offeredTo (b : Bus) (ids : List Nat) (e : Event) : Bus :=
  { b with observers := b.observers.map fun o =>
      if o.id ∈ ids then after b.capacity o (.offered e) else o }

lemma after_offered_id (capacity : Nat) (o : Observer) (e : Event) :
    (after capacity o (.offered e)).id = o.id := by
  simp only [after]
  split <;> rfl

lemma offer_fst {b : Bus} (ho : b.find? id = some o) (e : Event) :
    (b.offer id e).1 = b.accepts o := by
  rw [Bus.offer, ho]
  cases hroom : b.accepts o <;> simp [hroom]

/-- To offer an event to somebody is to offer it to the one who has that number. -/
lemma offer_eq {b : Bus} (hb : Orderly b) (ho : o ∈ b.observers) (e : Event) :
    b.offer o.id e = (b.accepts o, offeredTo b [o.id] e) := by
  have hfound := find?_of_mem hb ho
  have hsame : ∀ k ∈ b.observers, k.id = o.id → k = o := fun k hk hid =>
    Option.some.inj ((find?_of_mem hb hk).symm.trans (hid ▸ hfound))
  rw [Bus.offer, hfound]
  simp only [offeredTo, List.mem_singleton]
  by_cases hroom : b.accepts o = true
  · have hlt : o.queue.length < b.capacity := by simpa [Bus.accepts] using hroom
    rw [if_pos hroom, hroom, Bus.modify]
    congr 2
    refine List.map_congr_left fun k hk => ?_
    by_cases hid : k.id = o.id
    · obtain rfl := hsame k hk hid
      simp [after, hlt]
    · simp [hid]
  · have hfull : ¬ o.queue.length < b.capacity := by simpa [Bus.accepts] using hroom
    have hmap : (b.observers.map fun k =>
        if k.id = o.id then after b.capacity k (.offered e) else k) = b.observers.map id := by
      refine List.map_congr_left fun k hk => ?_
      by_cases hid : k.id = o.id
      · obtain rfl := hsame k hk hid
        simp [after, hfull]
      · simp [hid]
    rw [if_neg hroom, hmap, List.map_id, Bool.eq_false_iff.mpr hroom]

lemma offeredTo_cons {b : Bus} {j : Nat} {ids : List Nat} (hj : j ∉ ids) (e : Event) :
    offeredTo (offeredTo b [j] e) ids e = offeredTo b (j :: ids) e := by
  simp only [offeredTo, List.map_map, List.mem_cons]
  congr 1
  refine List.map_congr_left fun k _ => ?_
  by_cases hk : k.id = j
  · have hnot : k.id ∉ ids := hk ▸ hj
    simp [hk, after_offered_id, hj]
  · simp [hk]

/-- The offers of a publish, one after the other. -/
lemma exists_offers {b : Bus} {ids : List Nat} (hb : Orderly b) (hnodup : ids.Nodup)
    (hmem : ∀ j ∈ ids, ∃ o ∈ b.observers, o.id = j) (e : Event) (n : Nat) :
    ∃ past, Run ⟨b, some ⟨e, ids, n⟩⟩ past
      ⟨offeredTo b ids e, some ⟨e, [], n + ids.countP fun j => (b.offer j e).1⟩⟩ := by
  induction ids generalizing b n with
  | nil =>
    have hsame : offeredTo b [] e = b := by simp [offeredTo]
    exact ⟨[], by rw [hsame]; exact .start⟩
  | cons j ids ih =>
    obtain ⟨hj, hids⟩ := List.nodup_cons.mp hnodup
    obtain ⟨o, ho, rfl⟩ := hmem j (by simp)
    have hoffer := offer_eq hb ho e
    -- whoever comes later has the same room as before
    have hlater : ∀ i ∈ ids, ((offeredTo b [o.id] e).offer i e).1 = (b.offer i e).1 := by
      intro i hi
      obtain ⟨k, hk, rfl⟩ := hmem i (by simp [hi])
      have hne : o.id ≠ k.id := fun he => hj (he ▸ hi)
      have hfound := find?_of_mem hb hk
      have hfound' : (offeredTo b [o.id] e).find? k.id = some k := by
        have h := find?_offer b o.id e hfound
        rwa [hoffer, if_neg hne] at h
      rw [offer_fst hfound e, offer_fst hfound' e]
      rfl
    have hb' : Orderly (offeredTo b [o.id] e) := by
      have h := hb.offer o.id e
      rwa [hoffer] at h
    have hmem' : ∀ i ∈ ids, ∃ k ∈ (offeredTo b [o.id] e).observers, k.id = i := by
      intro i hi
      obtain ⟨k, hk, rfl⟩ := hmem i (by simp [hi])
      refine ⟨_, List.mem_map_of_mem hk, ?_⟩
      split
      · exact after_offered_id _ _ _
      · rfl
    obtain ⟨past, hrun⟩ := ih hb' hids hmem' (if b.accepts o then n + 1 else n)
    have made : step? ⟨b, some ⟨e, o.id :: ids, n⟩⟩ .offer =
        some ⟨offeredTo b [o.id] e, some ⟨e, ids, if b.accepts o then n + 1 else n⟩⟩ := by
      simp only [step?, hoffer]
    have hcount : (if b.accepts o = true then n + 1 else n) +
        ids.countP (fun i => ((offeredTo b [o.id] e).offer i e).1) =
          n + (o.id :: ids).countP fun i => (b.offer i e).1 := by
      rw [List.countP_cons, List.countP_congr fun i hi => by rw [hlater i hi], hoffer]
      split <;> omega
    rw [offeredTo_cons hj, hcount] at hrun
    exact ⟨_, (Run.start.step made).append hrun⟩

/-- **A publish that nobody disturbs.** It makes of a bus what it is said to at once, and returns
how many observers it reaches. -/
theorem Run.publish {b : Bus} (hb : Orderly b) (e : Event) :
    ∃ past, Run ⟨b, none⟩ (⟨⟨b.publish e, some ⟨e, [], b.acceptedBy⟩⟩, .conclude⟩ :: past)
      ⟨b.publish e, none⟩ := by
  have hpublish : offeredTo b (b.subscribed.map (·.id)) e = b.publish e := by
    simp only [offeredTo, Bus.publish]
    congr 1
    refine List.map_congr_left fun k hk => ?_
    have hsub := mem_subscribed_iff hb (find?_of_mem hb hk)
    by_cases hs : k.subscribed = true
    · rw [if_pos (hsub.mpr hs)]
      simp [after, hs, Bus.accepts]
    · rw [if_neg (mt hsub.mp hs)]
      simp [hs]
  have hcount : (b.subscribed.map (·.id)).countP (fun j => (b.offer j e).1) = b.acceptedBy := by
    rw [List.countP_map, Bus.acceptedBy]
    refine List.countP_congr fun k hk => ?_
    have hoffer := offer_eq hb (List.mem_filter.mp hk).1 e
    simp [hoffer]
  have hnodup : (b.subscribed.map (·.id)).Nodup :=
    List.Nodup.sublist (List.filter_sublist.map _) hb.nodup
  have hmem : ∀ j ∈ b.subscribed.map (·.id), ∃ o ∈ b.observers, o.id = j := by
    intro j hj
    obtain ⟨k, hk, rfl⟩ := List.mem_map.mp hj
    exact ⟨k, (List.mem_filter.mp hk).1, rfl⟩
  obtain ⟨past, hrun⟩ := exists_offers hb hnodup hmem e 0
  rw [hpublish, hcount, Nat.zero_add] at hrun
  have hbegin : Run ⟨b, none⟩ [⟨⟨b, none⟩, .publish e⟩]
      ⟨b, some ⟨e, b.subscribed.map (·.id), 0⟩⟩ := Run.start.step rfl
  exact ⟨_, (hbegin.append hrun).step rfl⟩

end Exchange

end NodeWatch
