import NodeWatch.Proofs.Service.Run

/-!
What a step makes of a service, part by part.

Settings, phase and looks after a step follow from those before it and from the action alone. So do
the events of a round and the roster: only the end of a look and a sweep touch the roster, and
neither does while the service stops.
-/

namespace NodeWatch.Service

/-- What a look saw; one that failed saw nothing. -/
def seen : Except Backend.Error (List Observation) → List Observation
  | .ok os => os
  | .error _ => []

/-- The events of a step, and the roster after it. -/
def round (s : Service) : Action → List Event × Roster
  | .finish _ result now =>
    if s.phase = .stopping then ([], s.roster)
    else s.roster.observeAll s.settings.pins now (Observation.latestById (seen result))
  | .sweep now places | .sweepTick now places =>
    if s.phase = .stopping then ([], s.roster)
    else
      let (os, r) := s.roster.sweep s.settings.threshold now places
      (os.map (⟨.lost, ·⟩), r)
  | _ => ([], s.roster)

/-- The phase after a step that can be made. -/
def phaseAfter (s : Service) : Action → Phase
  | .start => if s.phase = .stopping then .stopping else .running
  | .stop => if s.phase = .running then .stopping else s.phase
  | .stopped => .stopped
  | _ => s.phase

/-- Whether a stop has failed. -/
def jammedAfter (s : Service) : Action → Bool
  | .jam _ => true
  | _ => s.jammed

/-- The looks under way after a step. -/
def looksAfter (s : Service) : Action → List Look
  | .tick => ⟨s.nextLook, true⟩ :: s.looks
  | .ask => ⟨s.nextLook, false⟩ :: s.looks
  | .finish l _ _ | .abandon l => s.looks.erase l
  | _ => s.looks

/-- The number of the next look after a step. -/
def nextLookAfter (s : Service) : Action → Nat
  | .tick | .ask => s.nextLook + 1
  | _ => s.nextLook

variable {s₀ s s' : Service} {a : Action} {es : List Event} {past : List Moment}

/-- The parts that decide what can happen next, but for the outbox. -/
structure Frame (s s' : Service) (a : Action) : Prop where
  settings : s'.settings = s.settings
  phase : s'.phase = s.phaseAfter a
  jammed : s'.jammed = s.jammedAfter a
  looks : s'.looks = s.looksAfter a
  nextLook : s'.nextLook = s.nextLookAfter a

/-- A service that is brought up to date is the same but for roster, outbox and what is counted. -/
lemma commit_frame (s : Service) (os : List Observation) (now : Nat) :
    (s.commit os now).2.settings = s.settings ∧ (s.commit os now).2.phase = s.phase ∧
      (s.commit os now).2.jammed = s.jammed ∧ (s.commit os now).2.looks = s.looks ∧
      (s.commit os now).2.nextLook = s.nextLook := by
  unfold commit
  split <;> exact ⟨rfl, rfl, rfl, rfl, rfl⟩

lemma sweep_frame (s : Service) (now : Nat) (places : Places) :
    (s.sweep now places).2.settings = s.settings ∧ (s.sweep now places).2.phase = s.phase ∧
      (s.sweep now places).2.jammed = s.jammed ∧ (s.sweep now places).2.looks = s.looks ∧
      (s.sweep now places).2.nextLook = s.nextLook := by
  unfold sweep
  split <;> exact ⟨rfl, rfl, rfl, rfl, rfl⟩

lemma commit_round (s : Service) (os : List Observation) (now : Nat) :
    ((s.commit os now).1, (s.commit os now).2.roster) =
      if s.phase = .stopping then ([], s.roster)
      else s.roster.observeAll s.settings.pins now (Observation.latestById os) := by
  unfold commit
  split <;> rfl

lemma sweep_round (s : Service) (now : Nat) (places : Places) :
    ((s.sweep now places).1, (s.sweep now places).2.roster) = s.round (.sweep now places) := by
  unfold sweep round
  split <;> rfl

/-- A look that ends is closed, and the roster is brought in line with what it saw. -/
lemma endLook_eq (s : Service) (l : Look) (result : Except Backend.Error (List Observation))
    (now : Nat) : ∃ t : Service, s.endLook l result now = t.commit (seen result) now ∧
      t.roster = s.roster ∧ t.settings = s.settings ∧ t.phase = s.phase ∧ t.jammed = s.jammed ∧
      t.looks = s.looks.erase l ∧ t.nextLook = s.nextLook := by
  cases result with
  | ok os => exact ⟨_, rfl, rfl, rfl, rfl, rfl, rfl, rfl⟩
  | error e => exact ⟨_, rfl, rfl, rfl, rfl, rfl, rfl, rfl⟩

/-- A look can end while it is under way and no round is. -/
lemma step?_finish {l : Look} {result : Except Backend.Error (List Observation)} {now : Nat}
    (h : s.step? (.finish l result now) = some (es, s')) :
    l ∈ s.looks ∧ s.outbox = [] ∧ s.endLook l result now = (es, s') := by
  cases steps_of_step? h with
  | finish under quiet => exact ⟨under, quiet, rfl⟩

/-- **What a step tells and what it makes of the roster.** -/
lemma step?_round (h : s.step? a = some (es, s')) : (es, s'.roster) = s.round a := by
  have hcases := step?_cases h
  cases steps_of_step? h with
  | @finish l result now =>
    obtain ⟨t, ht, hroster, hsettings, hphase, -, -, -⟩ := s.endLook_eq l result now
    have hround := t.commit_round (seen result) now
    rw [← ht, hroster, hsettings, hphase] at hround
    exact hround
  | @sweepTick now places | @sweep now places => exact s.sweep_round now places
  | _ =>
    obtain ⟨hround, -, -⟩ | ⟨-, -, hroster, -, -⟩ := hcases
    · simp [Action.isRound] at hround
    · rw [hroster]
      rfl

lemma step?_frame (h : s.step? a = some (es, s')) : Frame s s' a := by
  cases steps_of_step? h with
  | @finish l result now =>
    obtain ⟨t, ht, -, hsettings, hphase, hjammed, hlooks, hnext⟩ := s.endLook_eq l result now
    obtain ⟨hs, hp, hj, hl, hn⟩ := t.commit_frame (seen result) now
    rw [← ht] at hs hp hj hl hn
    exact ⟨hs.trans hsettings, hp.trans hphase, hj.trans hjammed, hl.trans hlooks,
      hn.trans hnext⟩
  | @sweepTick now places | @sweep now places =>
    obtain ⟨hs, hp, hj, hl, hn⟩ := s.sweep_frame now places
    exact ⟨hs, hp, hj, hl, hn⟩
  | start stopped => exact ⟨rfl, (if_neg (by simp [stopped])).symm, rfl, rfl, rfl⟩
  | refuse free up =>
    have hphase : s.phase = s.phaseAfter .start := by
      cases hs : s.phase <;> simp_all [phaseAfter]
    exact ⟨rfl, hphase, rfl, rfl, rfl⟩
  | stop free =>
    unfold beginStop
    split
    next hp => exact ⟨rfl, (if_pos hp).symm, rfl, rfl, rfl⟩
    next hp => exact ⟨rfl, (if_neg hp).symm, rfl, rfl, rfl⟩
  | _ => exact ⟨rfl, rfl, rfl, rfl, rfl⟩

lemma Run.settings (h : Run s₀ past s) : s.settings = s₀.settings := by
  induction h with
  | start => rfl
  | step run made ih => rw [(step?_frame made).settings, ih]

/-- What holds at the end of a run but not at its start has come about by one of its steps. -/
lemma Run.exists_step {p : Service → Prop} (h : Run s₀ past s) (h₀ : ¬ p s₀) (hp : p s) :
    ∃ m ∈ past, ¬ p m.before ∧ ∃ t, m.before.step? m.action = some (m.events, t) ∧ p t := by
  induction h with
  | start => exact absurd hp h₀
  | @step past s s' a es run made ih =>
    by_cases hbefore : p s
    · obtain ⟨m, hm, hstep⟩ := ih hbefore
      exact ⟨m, List.mem_cons_of_mem _ hm, hstep⟩
    · exact ⟨⟨s, a, es⟩, List.mem_cons_self, hbefore, s', made, hp⟩

/-- A new service has valid settings, is stopped, and no look is under way. -/
lemma new_of_make {c : Config.Discovery} {backend : String} {pins : Bool} {m : Metrics}
    {clock : Time.Clock} (h : make c backend pins m clock = .ok s₀) :
    c.fault? = none ∧ s₀.settings = .ofConfig c backend pins clock ∧ s₀.phase = .stopped ∧
      s₀.jammed = false ∧ s₀.looks = [] := by
  unfold make at h
  split at h
  · simp at h
  next hfault =>
    rw [← Except.ok.inj h]
    exact ⟨hfault, rfl, rfl, rfl, rfl⟩

/-- A new service with the settings that hold by default. -/
def fresh : Service :=
  { settings := .ofConfig {} "broadcast" false, workers := { bus := .ofCapacity 256 } }

lemma make_fresh : make {} "broadcast" false {} = .ok fresh := by
  have hfault : Config.Discovery.fault? {} = none := by decide
  unfold make
  rw [hfault]
  rfl

end NodeWatch.Service
