import NodeWatch.Proofs.Service.Controls

/-!
A service with its controls is a service.

Whatever the controls do, the service that is seen without them makes a step of its own or none at
all. A start is one for the service when it gets the lock, a stop begins when its flag is raised,
and has ended when that is lowered.
-/

namespace NodeWatch.Service.Controls

/-- What a step of the controls is for the service; none if it is nothing. -/
def action? (c : Controls) : Turn → Option Action
  | .start => some .start
  | .raise => some .stop
  | .wait now => if c.failsToWait now then some (.jam now) else none
  | .lower => some .stopped
  | .tick _ => some .tick
  | .finish id result now => ((c.task? id).bind (·.look)).map (.finish · result now)
  | .sweep _ now places =>
    if !c.stopping && c.core.settings.hasThreshold then some (.sweepTick now places) else none
  | .abort id => ((c.task? id).bind (·.look)).map .abandon
  | .other a => some a
  | .launch _ | .stop | .leave | .prepare .. | .skip .. | .quit _ => none

/-- What is seen of a step without the controls. -/
def Seen (c c' : Controls) (es : List Event) : Option Action → Prop
  | none => es = [] ∧ c'.view = c.view
  | some a => c.view.step? a = some (es, c'.view)

variable {c c' : Controls} {turn : Turn} {es : List Event} {ids : List Nat} {id now : Nat}
  {k : Task} {l : Look}

lemma view_phase (c : Controls) : c.view.phase = c.phase := rfl

lemma phase_of_jammed (hj : c.core.jammed = true) : c.phase = .stopping := by
  rw [phase, if_pos hj]

lemma phase_of_calm (hj : c.core.jammed = false) : c.phase =
    if c.raises then .stopping else if c.hired?.isSome then .running else .stopped := by
  rw [phase, if_neg (by simp [hj]), raises, hired?]
  cases c.lock with
  | free => cases c.run <;> rfl
  | _ => rfl

/-- The phase changes only when a flag is raised or lowered and when tasks are hired. -/
lemma phase_congr (hjammed : c'.core.jammed = c.core.jammed) (hraises : c'.raises = c.raises)
    (hhired : c'.hired?.isSome = c.hired?.isSome) : c'.phase = c.phase := by
  cases hj : c.core.jammed with
  | true => rw [phase_of_jammed hj, phase_of_jammed (hjammed.trans hj)]
  | false => rw [phase_of_calm hj, phase_of_calm (hjammed.trans hj), hraises, hhired]

lemma view_congr (hcore : c'.core = c.core) (hraises : c'.raises = c.raises)
    (hhired : c'.hired?.isSome = c.hired?.isSome) : c'.view = c.view := by
  rw [view, view, phase_congr (hcore ▸ rfl) hraises hhired, hcore]

/-- Only tasks and the service itself change. -/
lemma view_retask {core : Service} {tasks : List Task} (hjammed : core.jammed = c.core.jammed) :
    Controls.view { c with core, tasks } = core.inPhase c.phase := by
  have hphase : Controls.phase { c with core, tasks } = c.phase := phase_congr hjammed rfl rfl
  exact congrArg core.inPhase hphase

/-! ### Calls -/

/-- A service whose stop has failed is neither started nor stopped. -/
lemma step?_start_of_jammed (hj : c.core.jammed = true) :
    c.view.step? .start = some ([], c.view) ∧ c.view.step? .stop = some ([], c.view) := by
  have hp : c.view.phase = .stopping := phase_of_jammed hj
  have hj' : c.view.jammed = true := hj
  simp [Service.step?, Service.start, beginStop, hp, hj']

lemma seen_started (free : c.lock = .free) (idle : c.run = none) :
    Seen c c.hire [] (some .start) := by
  show c.view.step? .start = _
  cases hj : c.core.jammed with
  | true =>
    have hview : c.hire.view = c.view := by
      rw [view, view, phase_of_jammed hj, phase_of_jammed (c := c.hire) hj]
      rfl
    rw [hview]
    exact (step?_start_of_jammed hj).1
  | false =>
    have hp : c.view.phase = .stopped := by
      rw [view_phase, phase_of_calm hj, raises, hired?, free, idle]
      rfl
    simp only [Service.step?, Service.start, hp, reduceCtorEq, false_and, if_false, if_true]
    rw [view, view, phase_of_calm (c := c.hire) hj]
    rfl

lemma seen_refused (free : c.lock = .free) (busy : c.run = some ids) :
    Seen c c [] (some .start) := by
  show c.view.step? .start = _
  cases hj : c.core.jammed with
  | true => exact (step?_start_of_jammed hj).1
  | false =>
    have hp : c.view.phase = .running := by
      rw [view_phase, phase_of_calm hj, raises, hired?, free, busy]
      rfl
    simp only [Service.step?, Service.start, hp, reduceCtorEq, false_and, if_false]

lemma seen_raised (lock : c.lock = .taken ids) : Seen c (c.raise ids) [] (some .stop) := by
  show c.view.step? .stop = _
  cases hj : c.core.jammed with
  | true =>
    have hview : (c.raise ids).view = c.view := by
      rw [view, view, phase_of_jammed hj, phase_of_jammed (c := c.raise ids) hj]
      rfl
    rw [hview]
    exact (step?_start_of_jammed hj).2
  | false =>
    have hp : c.view.phase = .running := by
      rw [view_phase, phase_of_calm hj, raises, hired?, lock]
      rfl
    simp only [Service.step?, beginStop, hp, reduceCtorEq, false_and, if_false, if_true]
    rw [view, view, phase_of_calm (c := c.raise ids) hj]
    rfl

lemma seen_jammed (lock : c.lock = .raised ids)
    (untold : c.core.settings.hasDeadline now = false) :
    Seen c (c.jam now) [] (some (.jam now)) := by
  have hp : c.phase = .stopping := by
    cases hj : c.core.jammed with
    | true => exact phase_of_jammed hj
    | false => rw [phase_of_calm hj, raises, lock, if_pos rfl]
  refine (if_pos ⟨hp, untold⟩ : c.view.step? (.jam now) = _).trans ?_
  rw [view, view, hp, phase_of_jammed (c := c.jam now) rfl]
  rfl

lemma Sound.seen_lowered (h : c.Sound) (lock : c.lock = .waiting ids)
    (gone : ∀ k ∈ c.tasks, k.id ∉ ids) :
    Seen c { c with lock := .lowered, stopping := false } [] (some .stopped) := by
  have hj := h.jammed_of_waiting lock
  have hp : c.phase = .stopping := by rw [phase_of_calm hj, raises, lock, if_pos rfl]
  have hnone : c.tasks = [] := (h.calm hj).tasks_eq_nil (by rw [hired?, lock]) gone
  have hidle : c.view.isBusy = false :=
    isBusy_eq_false_of_own (h.crew.looks_eq_nil (by simp [hnone]))
  refine (if_pos ⟨hp, hj, hidle⟩ : c.view.step? .stopped = _).trans ?_
  rw [view, view, phase_of_calm (c := { c with lock := .lowered, stopping := false }) hj]
  rfl

/-! ### Tasks and others -/

/-- The background looks: as the service does while it runs, or in vain. -/
lemma Sound.seen_ticked (h : c.Sound) {ready : Bool}
    (found : c.task? id = some ⟨id, false, none, ready⟩) (untold : id ∉ c.told) :
    Seen c ({ c with core := (c.core.beginLook true).2 }.setLook id
      (some (c.core.beginLook true).1)) [] (some .tick) := by
  obtain ⟨hk, -⟩ := mem_of_task? found
  have hmay : c.view.phase = .running ∧ c.view.isBusy = false ∨ c.view.jammed = true := by
    cases hj : c.core.jammed with
    | true => exact .inr hj
    | false =>
      have hs : c.stopping = false := by
        simpa using mt ((h.calm hj).told _ hk).mpr untold
      exact .inl ⟨(h.calm hj).phase_eq hj hk hs,
        isBusy_eq_false_of_own (h.own_eq_nil hj hk rfl rfl)⟩
  show c.view.step? .tick = _
  simp only [Service.step?, hmay, if_true]
  rfl

lemma Sound.seen_finished (h : c.Sound) {sweeps ready : Bool}
    (found : c.task? id = some ⟨id, sweeps, some l, ready⟩) (quiet : c.core.outbox = [])
    (result : Except Backend.Error (List Observation)) (now : Nat) :
    Seen c ({ c with core := (c.gated.endLook l result now).2 }.setLook id none)
      (c.gated.endLook l result now).1 (c.action? (.finish id result now)) := by
  obtain ⟨hk, -⟩ := mem_of_task? found
  have hl : l ∈ c.view.looks := (h.mem_looks hk rfl).1
  have hend := endLook_inPhase c.core h.gate.symm l result now
  have hjammed := (c.gated.endLook_keeps l result now).2
  rw [action?, found]
  refine (if_pos ⟨hl, quiet⟩ : c.view.step? (.finish l result now) = _).trans ?_
  rw [Controls.setLook, view_retask hjammed]
  exact congrArg some hend

lemma Sound.seen_swept (h : c.Sound) {look : Option Look} {places : Places}
    (found : c.task? id = some ⟨id, true, look, true⟩) (quiet : c.core.outbox = [])
    (told : c.gated.canSweep = true) :
    Seen c { c with core := (c.gated.sweep now places).2 } (c.gated.sweep now places).1
      (c.action? (.sweep id now places)) := by
  obtain ⟨hk, -⟩ := mem_of_task? found
  have hview : Controls.view { c with core := (c.gated.sweep now places).2 } =
      (c.gated.sweep now places).2.inPhase c.phase :=
    view_retask (c.gated.sweep_frame now places).2.2.1
  rcases Bool.eq_false_or_eq_true c.stopping with hs | hs
  · have hgate : c.gated.phase = .stopping := by simp [gated, hs]
    have hsweep : c.gated.sweep now places = ([], c.gated) := by
      rw [Service.sweep, if_pos hgate]
    have hact : c.action? (.sweep id now places) = none := by simp [action?, hs]
    rw [hact, Seen, hview, hsweep]
    exact ⟨rfl, rfl⟩
  · have hp : c.phase = .running := by
      have hj := h.jammed_of_down hs
      exact (h.calm hj).phase_eq hj hk hs
    have hthreshold : c.core.settings.hasThreshold = true := by
      simpa [canSweep, gated, hs] using told
    have hcan : c.view.canSweep = true := by simp [canSweep, view, hthreshold]
    have hact : c.action? (.sweep id now places) = some (.sweepTick now places) := by
      simp [action?, hs, hthreshold]
    have hstep : c.view.step? (.sweepTick now places) = some (c.view.sweep now places) :=
      if_pos ⟨hp, quiet, h.ready _ hk rfl, hcan⟩
    rw [hact, Seen, hview, hstep]
    exact congrArg some (sweep_inPhase c.core h.gate.symm now places)

/-- A sweep that cannot be made is none. -/
lemma seen_unswept {places : Places} (untold : c.gated.canSweep = false) :
    Seen c (c.endTask id) [] (c.action? (.sweep id now places)) := by
  have hthreshold : c.core.settings.hasThreshold = false := by
    simp only [canSweep, Bool.or_eq_false_iff] at untold
    exact untold.2
  simp only [action?, hthreshold, Bool.and_false, Bool.false_eq_true, if_false]
  exact ⟨rfl, rfl⟩

lemma Sound.seen_aborted (h : c.Sound) (lock : c.lock = .waiting ids)
    (found : c.task? id = some k) :
    Seen c ({ c with core := k.look.elim c.core c.core.closeLook }.endTask id) []
      (c.action? (.abort id)) := by
  obtain ⟨hk, rfl⟩ := mem_of_task? found
  have hj := h.jammed_of_waiting lock
  have hp : c.phase = .stopping := by rw [phase_of_calm hj, raises, lock, if_pos rfl]
  cases hlook : k.look with
  | none =>
    simp only [action?, found, Option.bind_some, hlook, Option.map_none]
    exact ⟨rfl, rfl⟩
  | some l =>
    obtain ⟨hl, hb⟩ := h.mem_looks hk hlook
    simp only [action?, found, Option.bind_some, hlook, Option.map_some]
    exact if_pos ⟨hp, hj, hl, hb⟩

lemma Sound.seen_other (h : c.Sound) {a : Action} {core : Service} (free : isFree a = true)
    (made : c.gated.step? a = some (es, core)) : Seen c { c with core } es (some a) := by
  have hjammed : core.jammed = c.gated.jammed := jammed_of_isFree free made
  show c.view.step? a = some (es, Controls.view _)
  rw [view_retask hjammed]
  exact step?_inPhase h.gate free made

/-- **A step of the controls is a step of the service, or nothing.** -/
theorem Sound.seen (h : c.Sound) (made : Steps c turn es c') :
    Seen c c' es (c.action? turn) := by
  cases made with
  | started free idle => exact seen_started free idle
  | refused free busy => exact seen_refused free busy
  | launched lock => exact ⟨rfl, view_congr rfl (by simp [raises, lock]) (by simp [hired?, lock])⟩
  | spared free idle => exact ⟨rfl, rfl⟩
  | took free busy =>
    exact ⟨rfl, view_congr rfl (by simp [raises, free]) (by simp [hired?, free, busy])⟩
  | raised lock => exact seen_raised lock
  | waited lock later told =>
    simp only [action?, failsToWait, told, Bool.not_true, Bool.false_eq_true, if_false]
    exact ⟨rfl, view_congr rfl (by simp [raises, lock]) (by simp [hired?, lock])⟩
  | jammed lock later untold =>
    simp only [action?, failsToWait, untold, Bool.not_false, if_true]
    exact seen_jammed lock untold
  | lowered lock gone => exact h.seen_lowered lock gone
  | left lock =>
    have hrun : c.run = none := h.vacant (by simp [lock])
    exact ⟨rfl, view_congr rfl (by simp [raises, lock]) (by simp [hired?, lock, hrun])⟩
  | prepared found told => exact ⟨rfl, rfl⟩
  | unprepared found untold => exact ⟨rfl, rfl⟩
  | skipped found told => exact ⟨rfl, rfl⟩
  | missed found untold => exact ⟨rfl, rfl⟩
  | ticked found untold => exact h.seen_ticked found untold
  | finished found quiet => exact h.seen_finished found quiet _ _
  | swept found quiet told => exact h.seen_swept found quiet told
  | unswept found quiet untold => exact seen_unswept untold
  | ended found told => exact ⟨rfl, rfl⟩
  | aborted lock found mem => exact h.seen_aborted lock found
  | other free made => exact h.seen_other free made

/-! ### Runs -/

/-- A step of a run, with the controls before it. -/
structure Moment where
  before : Controls
  turn : Turn
  events : List Event

/-- The moments from one state of the controls to another, the last first. -/
inductive Run (c₀ : Controls) : List Moment → Controls → Prop where
  | start : Run c₀ [] c₀
  | step {past : List Moment} {c c' : Controls} {t : Turn} {es : List Event}
    (run : Run c₀ past c) (made : c.step? t = some (es, c')) : Run c₀ (⟨c, t, es⟩ :: past) c'

/-- What a moment is for the service. -/
def Moment.view? (m : Moment) : Option Service.Moment :=
  (m.before.action? m.turn).map fun a => ⟨m.before.view, a, m.events⟩

variable {c₀ : Controls} {past later : List Moment}

lemma Run.append (h : Run c₀ past c) (hlater : Run c later c') : Run c₀ (later ++ past) c' := by
  induction hlater with
  | start => exact h
  | step run made ih => exact ih.step made

lemma Run.sound (h : Run c₀ past c) (h₀ : c₀.Sound) : c.Sound := by
  induction h with
  | start => exact h₀
  | step run made ih => exact ih.step (steps_of_step? made)

/-- **A run of the controls is a run of the service.** -/
theorem Run.view (h : Run c₀ past c) (h₀ : c₀.Sound) :
    Service.Run c₀.view (past.filterMap Moment.view?) c.view := by
  induction h with
  | start => exact .start
  | @step past c c' turn es run made ih =>
    have hseen := (run.sound h₀).seen (steps_of_step? made)
    rw [List.filterMap_cons, Moment.view?]
    cases hact : c.action? turn with
    | none =>
      rw [hact] at hseen
      rw [hseen.2]
      exact ih
    | some a =>
      rw [hact] at hseen
      exact ih.step hseen

/-- A service that nobody has started yet. -/
lemma sound_of_make {config : Config.Discovery} {backend : String} {pins : Bool} {m : Metrics}
    {clock : Time.Clock} {s : Service} (h : make config backend pins m clock = .ok s) :
    Sound { core := s } := by
  obtain ⟨-, -, -, hcalm, hnone⟩ := new_of_make h
  exact {
    crew := ⟨by simp, by simp, by simp, by simp [own, hnone]⟩
    told := by simp
    ready := by simp
    vacant := fun hl => absurd rfl hl
    hired := by simp [hired?]
    calm := fun _ => ⟨rfl, rfl, by simp, by simp⟩
    stuck := fun hj => by simp [hcalm] at hj }

end NodeWatch.Service.Controls
