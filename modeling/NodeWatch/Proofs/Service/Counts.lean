import NodeWatch.Proofs.Metrics
import NodeWatch.Proofs.Roster.Members
import NodeWatch.Proofs.Service.Paced

/-!
What the counters of a service say about it.

The number of members, the events of each kind, the rounds of each kind and the looks that failed
are counted at different places and at different times. Whenever no round is under way they agree
with what has happened, and with the roster.
-/

namespace NodeWatch.Service

open Paced (isWhole isOwn)

variable {es : List Event}

/-! ### What rounds do to the number of members -/

/-- Who is discovered comes in, and who is lost goes. -/
def Balances (n : Nat) (es : List Event) (n' : Nat) : Prop :=
  n' + es.countP (·.kind = .lost) = n + es.countP (·.kind = .discovered)

lemma Balances.trans {n n' n'' : Nat} {es fs : List Event} (h : Balances n es n')
    (h' : Balances n' fs n'') : Balances n (es ++ fs) n'' := by
  simp only [Balances, List.countP_append] at *
  omega

lemma balances_observeAll (r : Roster) (pinned : Bool) (now : Nat) (os : List Observation) :
    Balances r.size (r.observeAll pinned now os).1 (r.observeAll pinned now os).2.size := by
  have hlost : (r.observeAll pinned now os).1.countP (·.kind = .lost) = 0 :=
    List.countP_eq_zero.mpr fun e he => by simpa using r.kind_observeAll pinned now os e he
  rw [Balances, hlost, r.size_observeAll, Nat.add_zero]

lemma balances_sweep (r : Roster) (threshold now : Nat) (places : Places) :
    Balances r.size ((r.sweep threshold now places).1.map (⟨.lost, ·⟩))
      (r.sweep threshold now places).2.size := by
  have hall : ∀ k : EventKind,
      ((r.sweep threshold now places).1.map (⟨.lost, ·⟩ : _ → Event)).countP (·.kind = k) =
        if k = .lost then (r.sweep threshold now places).1.length else 0 := by
    intro k
    rw [List.countP_map]
    by_cases hk : k = .lost
    · simp [hk, Function.comp_def]
    · simp [hk, Ne.symm hk, Function.comp_def]
  rw [Balances, hall, hall, ← r.size_sweep threshold now places]
  simp

namespace Paced

variable {p₀ p p' : Paced} {pace : Pace} {past : List Moment}

/-! ### What has happened -/

/-- The kind of round that a step begins. -/
def Pace.round? : Pace → Option String
  | commit .. => some "discovery"
  | sweep .. => some "sweep"
  | _ => none

/-- A round of this kind begins and is not discarded. -/
def Moment.runs (name : String) (m : Moment) : Bool :=
  m.pace.round? = some name && m.before.core.phase ≠ .stopping

/-- A look ends with an error. -/
def Moment.fails (m : Moment) : Bool :=
  match m.pace with
  | .endLook _ (.error _) => true
  | _ => false

/-- A look begins. -/
def Moment.looks (m : Moment) : Bool :=
  match m.pace with
  | .whole .tick | .whole .ask => true
  | _ => false

/-- A look comes to nothing because of a stop: it is abandoned, or its round is discarded. -/
def Moment.discards (m : Moment) : Bool :=
  match m.pace with
  | .abandon _ => true
  | .commit .. => m.before.core.phase = .stopping
  | _ => false

/-- The event that a moment tells. -/
def Moment.told (m : Moment) : List Event :=
  match m.pace with
  | .tell => m.before.core.outbox.head?.toList
  | _ => []

/-! ### What a step does -/

/-- The series in which a step counts. -/
def counted (p : Paced) : Pace → List Metrics.Series
  | .endLook _ (.ok _) => [⟨.sampleDuration, [p.core.settings.backend]⟩]
  | .endLook _ (.error e) => [⟨.sampleDuration, [p.core.settings.backend]⟩,
      ⟨.sampleErrors, [p.core.settings.backend, e.kind]⟩]
  | .count => (p.uncounted.map fun (name, _) => ⟨.cycles, [name]⟩).toList
  | .tell =>
    match p.core.outbox with
    | [] => []
    | e :: _ => ⟨.events, [e.kind.text]⟩ ::
        p.core.workers.bus.missedBy.map fun o => ⟨.observerDropped, [o.name]⟩
  | .abandon l => if p.awaits l then [] else [⟨.sampleDuration, [p.core.settings.backend]⟩]
  | .elsewhere f values => if isOwn f then [] else [⟨f, values⟩]
  | _ => []

/-- The number of members that a step makes known. -/
def published? (p : Paced) : Pace → Option Nat
  | .count => p.uncounted.map (·.2)
  | _ => none

/-- The metrics after a step. -/
def metricsAfter (p : Paced) (pace : Pace) : Metrics :=
  let m := p.metrics.countAll (p.counted pace)
  ((p.published? pace).map m.setMembers).getD m

lemma metricsAfter_eq {ss : List Metrics.Series} (hc : p.counted pace = ss)
    (hn : p.published? pace = none) : p.metricsAfter pace = p.metrics.countAll ss := by
  rw [metricsAfter, hn, hc]
  rfl

/-- The round that is to be counted after a step that begins none. -/
def uncountedAfter (p : Paced) : Pace → Option (String × Nat)
  | .count => none
  | _ => p.uncounted

/-- What a step changes: it begins a round, or it leaves the roster and adds nothing to be told. -/
inductive Change (p : Paced) (pace : Pace) : List Event → Paced → Prop where
  | round {es : List Event} {p' : Paced} {name : String} (kind : pace.round? = some name)
    (runs : p.core.phase ≠ .stopping) (idle : p.Idle) (metrics : p'.metrics = p.metrics)
    (uncounted : p'.uncounted = some (name, p'.core.roster.size))
    (members : Balances p.core.roster.size es p'.core.roster.size)
    (outbox : p'.core.outbox = p.core.outbox ++ es) : Change p pace es p'
  | rest {p' : Paced} (quiet : pace.round? = none ∨ p.core.phase = .stopping)
    (metrics : p'.metrics = p.metricsAfter pace) (uncounted : p'.uncounted = p.uncountedAfter pace)
    (roster : p'.core.roster = p.core.roster)
    (outbox : (⟨p, pace, []⟩ : Moment).told ++ p'.core.outbox = p.core.outbox) : Change p pace [] p'

lemma change_commit (l : Look) (os : List Observation) (now : Nat) (hidle : p.Idle) :
    Change p (.commit l now) ((p.closeLook l).commit os now).1
      ((p.closeLook l).commit os now).2 := by
  by_cases hp : p.core.phase = .stopping
  · have hnone : (p.closeLook l).commit os now = ([], p.closeLook l) := if_pos hp
    rw [hnone]
    exact .rest (.inr hp) rfl rfl rfl rfl
  · have hsome : (p.closeLook l).commit os now =
        ((p.core.roster.observeAll p.core.settings.pins now (Observation.latestById os)).1,
          (p.closeLook l).change "discovery"
            (p.core.roster.observeAll p.core.settings.pins now (Observation.latestById os)).2
            (p.core.roster.observeAll p.core.settings.pins now (Observation.latestById os)).1) :=
      if_neg hp
    rw [hsome]
    exact .round rfl hp hidle rfl rfl (balances_observeAll ..) rfl

lemma change_sweep (now : Nat) (places : Places) (hidle : p.Idle) :
    Change p (.sweep now places) (p.sweep now places).1 (p.sweep now places).2 := by
  by_cases hp : p.core.phase = .stopping
  · have hnone : p.sweep now places = ([], p) := if_pos hp
    rw [hnone]
    exact .rest (.inr hp) rfl rfl rfl rfl
  · have hsome : p.sweep now places =
        ((p.core.roster.sweep p.core.settings.threshold now places).1.map (⟨.lost, ·⟩),
          p.change "sweep" (p.core.roster.sweep p.core.settings.threshold now places).2
            ((p.core.roster.sweep p.core.settings.threshold now places).1.map (⟨.lost, ·⟩))) :=
      if_neg hp
    rw [hsome]
    exact .round rfl hp hidle rfl rfl (balances_sweep ..) rfl

/-- **What a step changes** of what is counted. -/
lemma change_of_steps (h : Steps p pace es p') : Change p pace es p' := by
  cases h with
  | @endLook l result under lasts => cases result <;> exact .rest (.inl rfl) rfl rfl rfl rfl
  | commit now waits idle => exact change_commit _ _ now idle
  | sweep now places idle told => exact change_sweep now places idle
  | @count name n uncounted =>
    have hmetrics : p.metricsAfter .count = (p.metrics.cycle name).setMembers n := by
      simp only [metricsAfter, counted, published?, uncounted]
      rfl
    exact .rest (.inl rfl) hmetrics.symm rfl rfl rfl
  | @tell e rest settled outbox =>
    have hmetrics : p.metricsAfter .tell =
        (p.core.workers.bus.missedBy.foldl (fun m o => m.observerDrop o.name)
          (p.metrics.event e.kind.text)) := by
      rw [metricsAfter_eq (by rw [counted, outbox]) rfl, Metrics.countAll_cons, Metrics.countAll,
        List.foldl_map]
      rfl
    exact .rest (.inl rfl) hmetrics.symm rfl rfl (by simp [Moment.told, outbox, Service.tell])
  | @abandon l stops calm under background =>
    rw [abandon]
    by_cases hl : p.awaits l = true
    · rw [if_pos hl]
      have hcounted : p.counted (.abandon l) = [] := if_pos hl
      exact .rest (.inl rfl) (metricsAfter_eq hcounted rfl).symm rfl rfl rfl
    · rw [if_neg hl]
      have hcounted : p.counted (.abandon l) = [⟨.sampleDuration, [p.core.settings.backend]⟩] :=
        if_neg hl
      exact .rest (.inl rfl) (metricsAfter_eq hcounted rfl).symm rfl rfl rfl
  | @elsewhere f values other =>
    have hcounted : p.counted (.elsewhere f values) = [⟨f, values⟩] := if_neg other
    exact .rest (.inl rfl) (metricsAfter_eq hcounted rfl).symm rfl rfl rfl
  | whole here made =>
    obtain ⟨-, hroster, hout⟩ := rest_of_isWhole here made
    exact .rest (.inl rfl) (metrics_of_isWhole here made) rfl hroster hout

/-! ### The counters after a step that begins no round -/

section

variable {g : Metrics.Family} {values : List String} {name : String}

lemma active_metricsAfter : (p.metricsAfter pace).active = p.metrics.active := by
  unfold metricsAfter
  cases p.published? pace <;> simp

lemma get_metricsAfter (h : p.metrics.active = true) : (p.metricsAfter pace).get g values =
    p.metrics.get g values + (p.counted pace).countP ((⟨g, values⟩ : Metrics.Series).same ·) := by
  rw [← Metrics.get_countAll h]
  unfold metricsAfter
  cases p.published? pace <;> simp

lemma total_metricsAfter (h : p.metrics.active = true) : (p.metricsAfter pace).total g =
    p.metrics.total g + (p.counted pace).countP (·.family = g) := by
  rw [← Metrics.total_countAll h]
  unfold metricsAfter
  cases p.published? pace <;> simp

lemma members_metricsAfter (h : p.metrics.active = true) :
    (p.metricsAfter pace).members = (p.published? pace).getD p.metrics.members := by
  unfold metricsAfter
  cases hn : p.published? pace with
  | none => simp
  | some n => exact Metrics.members_setMembers (by simpa using h)

/-- A step counts the event that it tells, the round that is to be counted, and an error. -/
lemma countP_counted (p : Paced) (pace : Pace) (es : List Event) :
    (∀ k : EventKind, (p.counted pace).countP ((⟨.events, [k.text]⟩ : Metrics.Series).same ·) =
      (⟨p, pace, es⟩ : Moment).told.countP (·.kind = k)) ∧
    (∀ name, (p.counted pace).countP ((⟨.cycles, [name]⟩ : Metrics.Series).same ·) +
      ((p.uncountedAfter pace).map (·.1)).toList.count name =
        (p.uncounted.map (·.1)).toList.count name) ∧
    (p.counted pace).countP (·.family = .sampleErrors) =
      if (⟨p, pace, es⟩ : Moment).fails then 1 else 0 := by
  have hkind : ∀ k k' : EventKind, k.text = k'.text ↔ k' = k := by
    intro k k'
    cases k <;> cases k' <;> decide
  cases pace with
  | endLook l result =>
    cases result <;> simp [counted, uncountedAfter, Moment.told, Moment.fails, Metrics.Series.same]
  | count =>
    cases hu : p.uncounted with
    | none => simp [counted, uncountedAfter, Moment.told, Moment.fails, hu]
    | some round =>
      simp [counted, uncountedAfter, Moment.told, Moment.fails, hu, Metrics.Series.same,
        Metrics.Series.reading, List.count_singleton, List.countP_cons, eq_comm (a := round.1)]
  | tell =>
    cases hout : p.core.outbox with
    | nil => simp [counted, uncountedAfter, Moment.told, Moment.fails, hout]
    | cons e rest =>
      simp [counted, uncountedAfter, Moment.told, Moment.fails, hout, Metrics.Series.same,
        Metrics.Series.reading, hkind, Function.comp_def, List.countP_cons]
  | abandon l =>
    by_cases hl : p.awaits l <;>
      simp [counted, uncountedAfter, Moment.told, Moment.fails, Metrics.Series.same, hl]
  | elsewhere f values =>
    cases f <;>
      simp [counted, uncountedAfter, Moment.told, Moment.fails, Metrics.Series.same, isOwn]
  | _ => simp [counted, uncountedAfter, Moment.told, Moment.fails]

/-- The number of members is made known when the round that left them is counted. -/
lemma members_after (h : p.metrics.active = true) :
    ((p.uncountedAfter pace).map (·.2)).getD (p.metricsAfter pace).members =
      (p.uncounted.map (·.2)).getD p.metrics.members := by
  rw [members_metricsAfter h]
  cases pace <;> cases hu : p.uncounted <;> simp [uncountedAfter, published?, hu]

end

/-! ### What the counters of a run say -/

/-- What counters and roster say about what has happened. -/
structure Accounts (past : List Moment) (p : Paced) : Prop where
  active : p.metrics.active = true
  gauge : (p.uncounted.map (·.2)).getD p.metrics.members = p.core.roster.size
  members : Balances 0 (history Moment.events past) p.core.roster.size
  told : history Moment.told past ++ p.core.outbox = history Moment.events past
  events : ∀ k : EventKind,
    p.metrics.get .events [k.text] = (history Moment.told past).countP (·.kind = k)
  cycles : ∀ name, p.metrics.get .cycles [name] + (p.uncounted.map (·.1)).toList.count name =
    past.countP (·.runs name)
  errors : p.metrics.total .sampleErrors = past.countP (·.fails)

lemma told_of_round? {m : Moment} {name : String} (h : m.pace.round? = some name) :
    m.told = [] ∧ m.fails = false := by
  obtain ⟨before, pace, events⟩ := m
  cases pace <;> simp [Pace.round?] at h <;> exact ⟨rfl, rfl⟩

/-- A step keeps the accounts. -/
lemma Accounts.step (h : Accounts past p) (made : p.step? pace = some (es, p')) :
    Accounts (⟨p, pace, es⟩ :: past) p' := by
  cases change_of_steps (steps_of_step? made) with
  | @round _ _ name kind runs idle metrics uncounted members outbox =>
    obtain ⟨htold, hfails⟩ := told_of_round? (m := ⟨p, pace, es⟩) kind
    obtain ⟨hcounted, hout⟩ := idle
    refine ⟨metrics ▸ h.active, by rw [uncounted]; rfl, h.members.trans members, ?_, ?_, ?_, ?_⟩
    · rw [history_cons, history_cons, htold, outbox, List.append_nil, ← h.told, List.append_assoc]
    · intro k
      rw [history_cons, htold, List.append_nil, metrics, h.events]
    · intro name'
      have hcycles := h.cycles name'
      rw [hcounted] at hcycles
      rw [metrics, uncounted, List.countP_cons, ← hcycles]
      simp [Moment.runs, kind, runs, List.count_singleton]
    · rw [metrics, h.errors, List.countP_cons, hfails]
      rfl
  | rest quiet metrics uncounted roster outbox =>
    obtain ⟨hevents, hcycles, herrors⟩ := countP_counted p pace []
    have hruns : ∀ name, (⟨p, pace, []⟩ : Moment).runs name = false := by
      intro name
      rcases quiet with hround | hstop
      · simp [Moment.runs, hround]
      · simp [Moment.runs, hstop]
    refine ⟨?_, ?_, ?_, ?_, ?_, ?_, ?_⟩
    · rw [metrics, active_metricsAfter, h.active]
    · rw [metrics, uncounted, members_after h.active, h.gauge, roster]
    · rw [history_cons, List.append_nil, roster]
      exact h.members
    · rw [history_cons, history_cons, List.append_nil, List.append_assoc, outbox, h.told]
    · intro k
      rw [metrics, get_metricsAfter h.active, h.events, hevents, history_cons, List.countP_append]
    · intro name
      rw [metrics, uncounted, get_metricsAfter h.active, Nat.add_assoc, hcycles, h.cycles,
        List.countP_cons, hruns]
      rfl
    · rw [metrics, total_metricsAfter h.active, h.errors, herrors, List.countP_cons]

lemma Accounts.run (h₀ : Accounts [] p₀) (h : Run p₀ past p) : Accounts past p := by
  induction h with
  | start => exact h₀
  | step run made ih => exact ih.step made

/-! ### Looks that come to nothing -/

/-- The looks whose rounds wait are under way. -/
def Pending (p : Paced) : Prop := ∀ w ∈ p.waiting, w.1 ∈ p.core.looks

lemma Pending.closeLook (h : p.Pending) (l : Look) : (p.closeLook l).Pending := by
  intro w hw
  obtain ⟨hmem, hne⟩ := List.mem_filter.mp hw
  exact (List.mem_erase_of_ne (by simpa using hne)).mpr (h w hmem)

lemma Pending.of_eq (h : p.Pending) (hw : p'.waiting = p.waiting)
    (hl : p'.core.looks = p.core.looks) : p'.Pending := by
  rw [Pending, hw, hl]
  exact h

lemma commit_looks (p : Paced) (os : List Observation) (now : Nat) :
    (p.commit os now).2.waiting = p.waiting ∧
      (p.commit os now).2.core.looks = p.core.looks := by
  unfold commit
  split <;> exact ⟨rfl, rfl⟩

lemma sweep_looks (p : Paced) (now : Nat) (places : Places) :
    (p.sweep now places).2.waiting = p.waiting ∧
      (p.sweep now places).2.core.looks = p.core.looks := by
  unfold sweep
  split <;> exact ⟨rfl, rfl⟩

/-- How many looks are under way after a step. -/
lemma looks_of_steps (h : p.Pending) (made : Steps p pace es p') :
    let m : Moment := ⟨p, pace, es⟩
    p'.Pending ∧ p.core.looks.length + (if m.looks then 1 else 0) = p'.core.looks.length +
      (if m.runs "discovery" then 1 else 0) + (if m.discards then 1 else 0) := by
  cases made with
  | @endLook l result under lasts =>
    have hpending : ∀ os, ∀ w ∈ (l, os) :: p.waiting, w.1 ∈ p.core.looks :=
      fun os => List.forall_mem_cons.mpr ⟨under, h⟩
    cases result with
    | ok os => exact ⟨hpending os, rfl⟩
    | error e => exact ⟨hpending [], rfl⟩
  | @commit l os now waits idle =>
    obtain ⟨hwaiting, hlooks⟩ := commit_looks (p.closeLook l) os now
    have hlength := List.length_erase_add_one (h _ waits)
    refine ⟨(h.closeLook l).of_eq hwaiting hlooks, ?_⟩
    rw [hlooks]
    by_cases hstop : p.core.phase = .stopping
    · simpa [closeLook, Moment.looks, Moment.runs, Moment.discards, hstop] using hlength.symm
    · simpa [closeLook, Moment.looks, Moment.runs, Moment.discards, hstop, Pace.round?]
        using hlength.symm
  | sweep now places idle told =>
    obtain ⟨hwaiting, hlooks⟩ := sweep_looks p now places
    refine ⟨h.of_eq hwaiting hlooks, ?_⟩
    rw [hlooks]
    simp [Moment.looks, Moment.runs, Moment.discards, Pace.round?]
  | count uncounted | tell settled outbox | elsewhere other => exact ⟨h, rfl⟩
  | @abandon l stops calm under background =>
    have hlength := List.length_erase_add_one under
    rw [abandon]
    split <;> exact ⟨Pending.closeLook h l, hlength.symm⟩
  | @whole a core here made =>
    have hlooks := (step?_frame made).looks
    refine ⟨fun w hw => ?_, ?_⟩
    · have hmem := h w hw
      change w.1 ∈ core.looks
      rw [hlooks]
      cases a with
      | tick | ask => exact List.mem_cons_of_mem _ hmem
      | finish l result now | abandon l => simp [isWhole] at here
      | _ => exact hmem
    · change _ = core.looks.length + _ + _
      rw [hlooks]
      cases a with
      | finish l result now | abandon l => simp [isWhole] at here
      | _ => rfl

/-- Every look that began has had its round, has come to nothing, or is under way. -/
lemma Run.looks (h : Run p₀ past p) (hwaiting : p₀.waiting = []) (hlooks : p₀.core.looks = []) :
    p.Pending ∧ past.countP (·.looks) = past.countP (·.runs "discovery") +
      past.countP (·.discards) + p.core.looks.length := by
  induction h with
  | start => exact ⟨by simp [Pending, hwaiting], by simp [hlooks]⟩
  | @step past p p' pace es run made ih =>
    obtain ⟨hpending, hsum⟩ := ih
    obtain ⟨hpending', hstep⟩ := looks_of_steps hpending (steps_of_step? made)
    refine ⟨hpending', ?_⟩
    simp only [List.countP_cons]
    omega

/-! ### Runs of a new service -/

/-- Counting has begun, and nothing that belongs to a service has been counted. -/
structure Unused (m : Metrics) : Prop where
  active : m.active = true
  members : m.members = 0
  counts : ∀ c ∈ m.counts, isOwn c.1.family = false

variable {m : Metrics} {f : Metrics.Family}

lemma Unused.get_eq_zero (h : Unused m) (hf : isOwn f = true) (values : List String) :
    m.get f values = 0 := by
  have hnone : m.counts.find? (fun c => (⟨f, values⟩ : Metrics.Series).same c.1) = none := by
    refine List.find?_eq_none.mpr fun c hc hsame => ?_
    have hfamily : f = c.1.family := (Metrics.Series.same_iff.mp hsame).1
    rw [hfamily, h.counts c hc] at hf
    cases hf
  rw [Metrics.get, hnone]
  rfl

lemma Unused.total_eq_zero (h : Unused m) (hf : isOwn f = true) : m.total f = 0 := by
  have hnone : m.counts.filter (·.1.family = f) = [] := by
    refine List.filter_eq_nil_iff.mpr fun c hc hfamily => ?_
    rw [← of_decide_eq_true hfamily, h.counts c hc] at hf
    cases hf
  rw [Metrics.total, hnone]
  rfl

section

variable {c : Config.Discovery} {backend : String} {pins : Bool} {clock : Time.Clock}
  {s₀ : Service}

lemma accounts_of_make (hmake : make c backend pins m clock = .ok s₀) (hm : Unused m) :
    Accounts [] s₀.paced := by
  obtain ⟨hroster, hout, -⟩ := make_eq_ok hmake
  have hmetrics : s₀.paced.metrics = m := by
    unfold make at hmake
    split at hmake
    · cases hmake
    · rw [← Except.ok.inj hmake]
      rfl
  have hsize : s₀.paced.core.roster.size = 0 := congrArg Roster.size hroster
  refine ⟨?_, ?_, ?_, ?_, fun k => ?_, fun name => ?_, ?_⟩
  · rw [hmetrics, hm.active]
  · rw [hsize, hmetrics]
    exact hm.members
  · rw [hsize]
    rfl
  · exact hout
  · rw [hmetrics, hm.get_eq_zero rfl]
    rfl
  · rw [hmetrics, hm.get_eq_zero rfl]
    rfl
  · rw [hmetrics, hm.total_eq_zero rfl]
    rfl

/-- **The metrics agree with the roster.** Whenever no round is under way, the number of members is
known, and it is the number of discoveries less that of losses. The events of each kind are those
that the rounds have told, and the rounds of each kind are those that no stop has discarded; every
look that began has had its round, has come to nothing because of a stop, or is still under way. The
errors are the looks that failed. -/
theorem metrics_agree_with_roster {past : List Moment} {p : Paced}
    (hmake : make c backend pins m clock = .ok s₀) (hm : Unused m) (h : Run s₀.paced past p)
    (hidle : p.Idle) :
    p.metrics.members = p.core.roster.size ∧
      p.metrics.get .events ["discovered"] =
        p.core.roster.size + p.metrics.get .events ["lost"] ∧
      (∀ k : EventKind, p.metrics.get .events [k.text] =
        (history Moment.events past).countP (·.kind = k)) ∧
      (∀ name, p.metrics.get .cycles [name] = past.countP (·.runs name)) ∧
      past.countP (·.looks) = p.metrics.get .cycles ["discovery"] + past.countP (·.discards) +
        p.core.looks.length ∧
      p.metrics.total .sampleErrors = past.countP (·.fails) := by
  obtain ⟨hcounted, hout⟩ := hidle
  obtain ⟨-, -, -, -, hnone⟩ := new_of_make hmake
  have haccounts := (accounts_of_make hmake hm).run h
  have hgauge := haccounts.gauge
  have hevents : ∀ k : EventKind, p.metrics.get .events [k.text] =
      (history Moment.events past).countP (·.kind = k) := by
    intro k
    rw [haccounts.events, ← haccounts.told, hout, List.append_nil]
  have hcycles : ∀ name, p.metrics.get .cycles [name] = past.countP (·.runs name) := by
    intro name
    have hname := haccounts.cycles name
    rw [hcounted] at hname
    simpa using hname
  have hmembers := haccounts.members
  rw [Balances, ← hevents, ← hevents, Nat.zero_add] at hmembers
  rw [hcounted] at hgauge
  refine ⟨hgauge, hmembers.symm, hevents, hcycles, ?_, haccounts.errors⟩
  rw [hcycles]
  exact (h.looks rfl hnone).2

theorem metrics_agree_with_roster_after_two_looks :
    ∃ (s₀ : Service) (past : List Moment) (p : Paced),
      make {} "broadcast" false (Metrics.init {}) = .ok s₀ ∧ Run s₀.paced past p ∧ p.Idle ∧
        p.metrics.members = 1 ∧ p.metrics.get .cycles ["discovery"] = 2 ∧
        p.metrics.total .sampleErrors = 1 := by
  let s₀ : Service :=
    { settings := .ofConfig {} "broadcast" false
      workers := { bus := .ofCapacity 256, metrics := Metrics.init {} } }
  have hmake : make {} "broadcast" false (Metrics.init {}) = .ok s₀ := by
    have hfault : Config.Discovery.fault? {} = none := by decide
    unfold make
    rw [hfault]
    rfl
  let o : Observation := .bare "a" "pi" (.v4 10 0 0 1) 80 (.ofSeconds 0)
  -- one look finds a node; another fails meanwhile, and its round comes second
  have h₁ : Run s₀.paced _ _ := Run.start.step (a := .whole .ask) rfl
  have h₂ := h₁.step (a := .whole .ask) rfl
  have h₃ := h₂.step (a := .endLook ⟨0, false⟩ (.ok [o])) rfl
  have h₄ := h₃.step (a := .endLook ⟨1, false⟩ (.error .closed)) rfl
  have h₅ := h₄.step (a := .commit ⟨0, false⟩ 7) rfl
  have h₆ := h₅.step (a := .count) rfl
  have h₇ := h₆.step (a := .tell) rfl
  have h₈ := h₇.step (a := .commit ⟨1, false⟩ 8) rfl
  have h₉ := h₈.step (a := .count) rfl
  have hm : Unused (Metrics.init {}) := ⟨rfl, rfl, by simp [Metrics.init]⟩
  obtain ⟨hmembers, -, -, hcycles, -, herrors⟩ :=
    metrics_agree_with_roster hmake hm h₉ ⟨rfl, rfl⟩
  exact ⟨s₀, _, _, hmake, h₉, ⟨rfl, rfl⟩, hmembers, hcycles "discovery", herrors⟩

end

end Paced

end NodeWatch.Service
