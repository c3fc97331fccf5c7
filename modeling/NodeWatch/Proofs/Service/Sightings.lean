import NodeWatch.Proofs.Observation
import NodeWatch.Proofs.Roster.Members
import NodeWatch.Proofs.Service.Step

/-!
When a member is lost.

A member is lost by a sweep, and only when the last look that saw it is long enough ago. What was
last seen of an identity, and when, is read off the moments of the run, not off the roster.
-/

namespace NodeWatch.Service

/-- What a look saw of a node, and when it ended. -/
structure Sighting where
  node : Observation
  pinned : Bool
  seenAt : Nat

/-- What a moment shows of an identity. A look that ends shows the last of its observations, unless
a stop discards it. -/
def Moment.sees? (id : String) (m : Moment) : Option Sighting :=
  match m.action with
  | .finish _ result now =>
    if m.before.phase = .stopping then none
    else ((seen result).reverse.find? (·.id = id)).map (⟨·, m.before.settings.pins, now⟩)
  | _ => none

/-- What was last seen of an identity. -/
def lastSeen? (id : String) (past : List Moment) : Option Sighting :=
  past.findSome? (·.sees? id)

/-- The time of a round. -/
def Action.time? : Action → Option Nat
  | finish _ _ now | sweepTick now _ | sweep now _ => some now
  | _ => none

/-- The time of a sweep. -/
def Action.sweeps? : Action → Option Nat
  | sweepTick now _ | sweep now _ => some now
  | _ => none

/-- The clock never goes back. -/
def Chronological (past : List Moment) : Prop :=
  (past.filterMap (·.action.time?)).Pairwise fun later earlier => earlier ≤ later

instance (past : List Moment) : Decidable (Chronological past) :=
  inferInstanceAs (Decidable (List.Pairwise _ _))

/-- This is what was last seen of the identity, at least the given time ago, and it was not
pinned. -/
def Overdue (past : List Moment) (threshold now : Nat) (o : Observation) : Prop :=
  ∃ u, lastSeen? o.id past = some ⟨o, false, u⟩ ∧ u + threshold ≤ now

variable {c : Config.Discovery} {backend : String} {pins : Bool} {metrics : Metrics}
  {clock : Time.Clock} {s₀ s s' : Service} {a : Action} {es : List Event} {past : List Moment}
  {id : String}

/-! ### What one step does -/

lemma Action.time?_of_sweeps? {t : Nat} (h : a.sweeps? = some t) : a.time? = some t := by
  cases a <;> simp_all [Action.sweeps?, Action.time?]

lemma Moment.time?_of_sees? {m : Moment} {g : Sighting} (h : m.sees? id = some g) :
    m.action.time? = some g.seenAt ∧ g.pinned = m.before.settings.pins ∧ g.node.id = id := by
  unfold Moment.sees? at h
  split at h
  next l result now ha =>
    simp only [Option.ite_none_left_eq_some, Option.map_eq_some_iff] at h
    obtain ⟨-, o, ho, rfl⟩ := h
    exact ⟨by rw [ha]; rfl, rfl, by simpa using List.find?_some ho⟩
  next => simp at h

lemma step?_stopping (made : s.step? a = some (es, s')) (hp : s.phase = .stopping) :
    es = [] ∧ s'.roster = s.roster := by
  have hround := step?_round made
  unfold round at hround
  split at hround <;> simpa [hp] using hround

/-- A sweep that is not discarded. -/
lemma step?_sweeps {t : Nat} (made : s.step? a = some (es, s')) (ha : a.sweeps? = some t)
    (hp : s.phase ≠ .stopping) :
    ∃ places, es = (s.roster.sweep s.settings.threshold t places).1.map (⟨.lost, ·⟩) ∧
      s'.roster = (s.roster.sweep s.settings.threshold t places).2 := by
  have hround := step?_round made
  cases a with
  | sweepTick now places | sweep now places =>
    obtain rfl : now = t := by simpa [Action.sweeps?] using ha
    exact ⟨places, by simpa [round, hp] using hround⟩
  | _ => simp [Action.sweeps?] at ha

/-- A look that ends in an error changes no member and tells nothing. -/
lemma step?_failed {l : Look} {err : Backend.Error} {t : Nat}
    (made : s.step? (.finish l (.error err) t) = some (es, s')) :
    es = [] ∧ s'.roster = s.roster := by
  have hround := step?_round made
  simpa [round, seen, Observation.latestById, Roster.observeAll] using hround

/-- Where nothing is swept, nobody leaves. -/
lemma step?_keeps (made : s.step? a = some (es, s')) (ha : a.sweeps? = none) :
    (∀ e ∈ es, e.kind ≠ .lost) ∧
      ∀ id, (s.roster.find? id).isSome = true → (s'.roster.find? id).isSome = true := by
  have hround := step?_round made
  cases a with
  | finish l result now =>
    by_cases hp : s.phase = .stopping
    · obtain ⟨rfl, hroster⟩ := step?_stopping made hp
      simp [hroster]
    · rw [round, if_neg hp] at hround
      obtain ⟨rfl, hroster⟩ := Prod.mk.inj hround
      rw [hroster]
      exact ⟨Roster.kind_observeAll _ _ _ _, fun id =>
        Roster.isSome_find?_observeAll (Observation.nodup_latestById _) _ _⟩
  | sweepTick now places | sweep now places => simp [Action.sweeps?] at ha
  | _ =>
    obtain ⟨rfl, hroster⟩ := Prod.mk.inj hround
    simp [hroster]

/-- A member after a step is what the step shows of the identity; if it shows nothing, it is the
member before. -/
lemma step?_sees {m : Member} (made : s.step? a = some (es, s')) (hd : s.roster.Distinct)
    (hm : s'.roster.find? id = some m) :
    (⟨s, a, es⟩ : Moment).sees? id = some ⟨m.node, m.pinned, m.seenAt⟩ ∨
      (⟨s, a, es⟩ : Moment).sees? id = none ∧ s.roster.find? id = some m := by
  have hround := step?_round made
  by_cases hp : s.phase = .stopping
  · refine .inr ⟨?_, by rw [← (step?_stopping made hp).2, hm]⟩
    unfold Moment.sees?
    split <;> simp [hp]
  cases a with
  | finish l result now =>
    rw [round, if_neg hp] at hround
    rw [(Prod.mk.inj hround).2, Roster.find?_observeAll (Observation.nodup_latestById _),
      Observation.find?_latestById] at hm
    simp only [Moment.sees?, hp, if_false]
    cases hf : (seen result).reverse.find? (·.id = id) with
    | none =>
      rw [hf] at hm
      exact .inr ⟨rfl, hm⟩
    | some o =>
      rw [hf] at hm
      obtain rfl : s.roster.renewed o s.settings.pins now = m := by simpa using hm
      exact .inl rfl
  | sweepTick now places | sweep now places =>
    obtain ⟨_, -, hroster⟩ := step?_sweeps made rfl hp
    rw [hroster] at hm
    obtain ⟨hmem, rfl⟩ := Roster.find?_some hm
    exact .inr ⟨rfl, Roster.find?_of_mem hd (Roster.mem_sweep.mp hmem).1⟩
  | _ => exact .inr ⟨rfl, by rw [← hm, (Prod.mk.inj hround).2]⟩

/-! ### What a run keeps -/

lemma Run.distinct (h : Run s₀ past s) (h₀ : s₀.roster = .empty) : s.roster.Distinct :=
  (h.replay? (by rw [h₀]; exact Roster.distinct_empty)).1

/-- **A member is what was last seen of its identity.** -/
lemma Run.lastSeen?_of_find? (h : Run s₀ past s) (h₀ : s₀.roster = .empty) {m : Member}
    (hm : s.roster.find? id = some m) :
    lastSeen? id past = some ⟨m.node, m.pinned, m.seenAt⟩ := by
  induction h with
  | start =>
    rw [h₀] at hm
    simp [Roster.find?, Roster.empty] at hm
  | step run made ih =>
    rw [lastSeen?, List.findSome?_cons]
    rcases step?_sees made (run.distinct h₀) hm with hsees | ⟨hsees, hbefore⟩
    · rw [hsees]
    · rw [hsees]
      exact ih hbefore

lemma Run.lastSeen?_of_mem (h : Run s₀ past s) (h₀ : s₀.roster = .empty) {m : Member}
    (hm : m ∈ s.roster.members) :
    lastSeen? m.node.id past = some ⟨m.node, m.pinned, m.seenAt⟩ :=
  h.lastSeen?_of_find? h₀ (Roster.find?_of_mem (h.distinct h₀) hm)

lemma Run.settings_of_mem (h : Run s₀ past s) {m : Moment} (hm : m ∈ past) :
    m.before.settings = s₀.settings := by
  obtain ⟨later, earlier, rfl⟩ := List.append_of_mem hm
  obtain ⟨-, hpast, -, -⟩ := h.split
  exact hpast.settings

/-- Either all members are pinned or none is. -/
lemma Run.pinned (h : Run s₀ past s) (h₀ : s₀.roster = .empty) {m : Member}
    (hm : m ∈ s.roster.members) : m.pinned = s₀.settings.pins := by
  obtain ⟨k, hk, hsees⟩ := List.exists_of_findSome?_eq_some (h.lastSeen?_of_mem h₀ hm)
  rw [← h.settings_of_mem hk]
  exact (Moment.time?_of_sees? hsees).2.1

lemma Chronological.le_of_mem {m k : Moment} (h : Chronological (m :: past)) {t u : Nat}
    (ht : m.action.time? = some t) (hk : k ∈ past) (hu : k.action.time? = some u) : u ≤ t := by
  simp only [Chronological, List.filterMap_cons, ht, List.pairwise_cons] at h
  exact h.1 _ (List.mem_filterMap.mpr ⟨k, hk, hu⟩)

/-- Nothing that was seen was seen later than now. -/
lemma Chronological.seenAt_le {m : Moment} (h : Chronological (m :: past)) {t : Nat}
    (ht : m.action.time? = some t) {g : Sighting} (hg : lastSeen? id past = some g) :
    g.seenAt ≤ t := by
  obtain ⟨k, hk, hsees⟩ := List.exists_of_findSome?_eq_some hg
  exact h.le_of_mem ht hk (Moment.time?_of_sees? hsees).1

lemma Chronological.tail {m : Moment} (h : Chronological (m :: past)) : Chronological past := by
  rw [Chronological, List.filterMap_cons] at h
  split at h
  · exact h
  · exact (List.pairwise_cons.mp h).2

lemma Chronological.of_append {later : List Moment} (h : Chronological (later ++ past)) :
    Chronological past := by
  induction later with
  | nil => exact h
  | cons m later ih => exact ih h.tail

/-- What was last seen was seen no earlier than what was seen before. -/
lemma Chronological.le_lastSeen {later earlier : List Moment} {m : Moment} {g g' : Sighting}
    (h : Chronological (later ++ m :: earlier)) (hm : m.sees? id = some g)
    (hlast : lastSeen? id (later ++ m :: past) = some g') :
    g.seenAt ≤ g'.seenAt := by
  induction later with
  | nil =>
    rw [List.nil_append, lastSeen?, List.findSome?_cons, hm] at hlast
    exact Nat.le_of_eq (congrArg Sighting.seenAt (Option.some.inj hlast))
  | cons k later ih =>
    rw [List.cons_append, lastSeen?, List.findSome?_cons] at hlast
    cases hk : k.sees? id with
    | none =>
      rw [hk] at hlast
      exact ih h.tail hlast
    | some g'' =>
      rw [hk] at hlast
      obtain rfl : g'' = g' := Option.some.inj hlast
      exact h.le_of_mem (Moment.time?_of_sees? hk).1 (by simp) (Moment.time?_of_sees? hm).1

/-- **Whoever is lost has not been seen for as long as the threshold.** -/
lemma Run.stale_of_lost {k m : Moment} {mid earlier : List Moment}
    (h : Run s₀ (k :: (mid ++ m :: past)) s) (h₀ : s₀.roster = .empty)
    (hclock : Chronological (mid ++ m :: earlier)) {g : Sighting} (hm : m.sees? id = some g)
    {e : Event} (he : e ∈ k.events) (hkind : e.kind = .lost) (hid : e.node.id = id) :
    ∃ t, k.action.sweeps? = some t ∧ s₀.settings.threshold ≤ t - g.seenAt := by
  obtain ⟨hbefore, made⟩ := h.last
  cases hsweep : k.action.sweeps? with
  | none => exact absurd hkind ((step?_keeps made hsweep).1 e he)
  | some t =>
    have hp : k.before.phase ≠ .stopping := fun hp => by
      rw [(step?_stopping made hp).1] at he
      simp at he
    obtain ⟨places, hes, -⟩ := step?_sweeps made hsweep hp
    rw [hes, hbefore.settings] at he
    obtain ⟨-, n, hn, hnode, hstale⟩ := Roster.mem_lost_sweep.mp he
    have hlast := hbefore.lastSeen?_of_mem h₀ hn
    rw [hnode, hid] at hlast
    have hafter := hclock.le_lastSeen hm hlast
    simp only [Member.isStale, Bool.and_eq_true, decide_eq_true_eq] at hstale hafter
    exact ⟨t, rfl, by omega⟩

/-- A member is stale if what was last seen of it is overdue. -/
lemma Run.overdue_iff (h : Run s₀ past s) (h₀ : s₀.roster = .empty) {t : Nat}
    (ha : a.sweeps? = some t) (hclock : Chronological (⟨s, a, es⟩ :: past)) {m : Member}
    (hm : m ∈ s.roster.members) (threshold : Nat) :
    Overdue past threshold t m.node ↔ m.isStale threshold t = true := by
  have hlast := h.lastSeen?_of_mem h₀ hm
  have hle := hclock.seenAt_le (Action.time?_of_sweeps? ha) hlast
  simp only at hle
  simp only [Overdue, hlast, Member.isStale, Option.some.injEq, Sighting.mk.injEq, true_and,
    Bool.and_eq_true, Bool.not_eq_true', decide_eq_true_eq]
  constructor
  · rintro ⟨u, ⟨hpin, rfl⟩, hu⟩
    exact ⟨hpin, by omega⟩
  · rintro ⟨hpin, hu⟩
    exact ⟨_, ⟨hpin, rfl⟩, by omega⟩

/-- While nothing is stopped, no stop is under way. -/
lemma Run.exists_stop (h : Run s₀ past s) (h₀ : s₀.phase ≠ .stopping) (hp : s.phase = .stopping) :
    ∃ k ∈ past, k.action = .stop := by
  obtain ⟨k, hk, hbefore, t, made, hafter⟩ := h.exists_step (p := (·.phase = .stopping)) h₀ hp
  rw [(step?_frame made).phase] at hafter
  refine ⟨k, hk, ?_⟩
  cases ha : k.action <;> simp_all [phaseAfter]

/-- Whoever is pinned is never lost. -/
lemma Run.kind_of_pins (h : Run s₀ past s) (h₀ : s₀.roster = .empty)
    (hpins : s₀.settings.pins = true) {m : Moment} (hm : m ∈ past) :
    ∀ e ∈ m.events, e.kind ≠ .lost := by
  obtain ⟨later, earlier, rfl⟩ := List.append_of_mem hm
  obtain ⟨s', hpast, made, -⟩ := h.split
  cases ha : m.action.sweeps? with
  | none => exact (step?_keeps made ha).1
  | some t =>
    by_cases hp : m.before.phase = .stopping
    · rw [(step?_stopping made hp).1]
      simp
    · obtain ⟨places, hes, -⟩ := step?_sweeps made ha hp
      rw [hes]
      intro e he
      obtain ⟨-, k, hk, -, hstale⟩ := Roster.mem_lost_sweep.mp he
      simp [Member.isStale, hpast.pinned h₀ hk, hpins] at hstale

/-- **Whoever is lost was last seen long enough ago, and whoever was is lost by the next sweep.** A
sweep gives up those members of which the latest observation that was applied is not pinned and at
least the threshold old. It tells each of them once, with that observation, and leaves all others as
they are. Nothing else tells that somebody is lost or removes a member, and a look that fails
changes nothing at all. While a stop is under way, sweeps are discarded as looks are. Between two
losses of one identity it has been discovered, and with a backend that pins nobody is ever lost. -/
theorem lost_iff_overdue (hmake : make c backend pins metrics clock = .ok s₀) (hrun : Run s₀ past s)
    (made : s.step? a = some (es, s')) (hclock : Chronological (⟨s, a, es⟩ :: past)) :
    (∀ t, a.sweeps? = some t → s.phase ≠ .stopping →
      (∀ e, e ∈ es ↔ e.kind = .lost ∧ ∃ m ∈ s.roster.members, m.node = e.node ∧
        Overdue past (Settings.ofConfig c backend pins clock).threshold t m.node) ∧
      (es.map (·.node.id)).Nodup ∧
      ∀ m, m ∈ s'.roster.members ↔ m ∈ s.roster.members ∧
        ¬ Overdue past (Settings.ofConfig c backend pins clock).threshold t m.node) ∧
    (a.sweeps? = none → (∀ e ∈ es, e.kind ≠ .lost) ∧
      ∀ m ∈ s.roster.members, ∃ m' ∈ s'.roster.members, m'.node.id = m.node.id) ∧
    (s.phase = .stopping →
      es = [] ∧ s'.roster = s.roster ∧ ∃ k ∈ past, k.action = .stop) ∧
    (∀ l err t, a = .finish l (.error err) t → es = [] ∧ s'.roster = s.roster) ∧
    (∀ front e mid f back,
      history Moment.events (⟨s, a, es⟩ :: past) = front ++ e :: mid ++ f :: back →
      e.kind = .lost → f.kind = .lost → f.node.id = e.node.id →
      ∃ x ∈ mid, x.kind = .discovered ∧ x.node.id = e.node.id) ∧
    (pins = true → ∀ e ∈ history Moment.events (⟨s, a, es⟩ :: past), e.kind ≠ .lost) := by
  obtain ⟨hempty, -, -⟩ := make_eq_ok hmake
  obtain ⟨-, hsettings, hstopped, -⟩ := new_of_make hmake
  have hdistinct := hrun.distinct hempty
  have hstep := hrun.step made
  refine ⟨fun t ha hp => ?sweep, fun ha => ?other, fun hp => ?stopping, ?failed, ?twice, ?pinned⟩
  case sweep =>
    obtain ⟨places, rfl, hroster⟩ := step?_sweeps made ha hp
    rw [hrun.settings, hsettings] at hroster ⊢
    have hstale := fun {m} hm => hrun.overdue_iff hempty ha hclock (m := m) hm
    refine ⟨fun e => ?_, ?_, fun m => ?_⟩
    · rw [Roster.mem_lost_sweep]
      refine and_congr_right fun _ => exists_congr fun m => ?_
      exact and_congr_right fun hm => and_congr_right fun _ => (hstale hm _).symm
    · rw [List.map_map]
      exact hdistinct.nodup_sweep _ _ _
    · rw [hroster, Roster.mem_sweep]
      exact and_congr_right fun hm => by rw [hstale hm, Bool.not_eq_true]
  case other =>
    refine ⟨(step?_keeps made ha).1, fun m hm => ?_⟩
    have hfound := Roster.find?_of_mem hdistinct hm
    obtain ⟨m', hm'⟩ := Option.isSome_iff_exists.mp
      ((step?_keeps made ha).2 m.node.id (by rw [hfound]; rfl))
    exact ⟨m', Roster.find?_some hm'⟩
  case stopping =>
    obtain ⟨hes, hroster⟩ := step?_stopping made hp
    exact ⟨hes, hroster, hrun.exists_stop (by rw [hstopped]; simp) hp⟩
  case failed =>
    rintro l err t rfl
    exact step?_failed made
  case twice =>
    intro front e mid f back hall he hf hid
    have hreplay := (hstep.replay? (by rw [hempty]; exact Roster.distinct_empty)).2
    rw [hall] at hreplay
    exact Picture.discovered_between hreplay he hf hid
  case pinned =>
    intro hpins e he
    obtain ⟨m, hm, hem⟩ := mem_history.mp he
    exact hstep.kind_of_pins hempty (by rw [hsettings]; exact hpins) hm e hem

/-- Two nodes are seen, one a minute after the other, and then a look fails. A minute and a half
after the first was seen, it is lost. -/
theorem lost_iff_overdue_for_two_nodes :
    ∃ (s₀ s s' : Service) (past : List Moment) (es : List Event) (o p : Observation),
      make {} "broadcast" false {} = .ok s₀ ∧ Run s₀ past s ∧
      s.step? (.sweep 90000 .same) = some (es, s') ∧ es = [⟨.lost, o⟩] ∧
      Overdue past 90000 90000 o ∧ s'.roster.members.map (·.node) = [p] ∧
      ¬ Overdue past 90000 90000 p := by
  let o : Observation := .bare "a" "pi" (.v4 10 0 0 1) 80 (.ofSeconds 0)
  let p : Observation := .bare "b" "nas" (.v4 10 0 0 2) 80 (.ofSeconds 60)
  have h₁ : Run fresh _ _ := Run.start.step (a := .ask) rfl
  have h₂ := h₁.step (a := .finish ⟨0, false⟩ (.ok [o]) 0) rfl
  have h₃ := h₂.step (a := .tell) rfl
  have h₄ := h₃.step (a := .ask) rfl
  have h₅ := h₄.step (a := .finish ⟨1, false⟩ (.ok [p]) 60000) rfl
  have h₆ := h₅.step (a := .tell) rfl
  have h₇ := h₆.step (a := .ask) rfl
  have h₈ := h₇.step (a := .finish ⟨2, false⟩ (.error (.timeout (.ofSeconds 5))) 70000) rfl
  obtain ⟨hsweep, -⟩ := lost_iff_overdue make_fresh h₈ (a := .sweep 90000 .same) rfl (by decide)
  obtain ⟨hlost, -, hstay⟩ := hsweep 90000 rfl (by decide)
  refine ⟨fresh, _, _, _, _, o, p, make_fresh, h₈, rfl, rfl, ?_, rfl, ?_⟩
  · obtain ⟨-, m, -, hnode, hover⟩ := (hlost ⟨.lost, o⟩).mp (List.mem_singleton.mpr rfl)
    rw [hnode] at hover
    exact hover
  · exact ((hstay ⟨p, false, .ofSeconds 60, 60000⟩).mp (List.mem_singleton.mpr rfl)).2

end NodeWatch.Service
