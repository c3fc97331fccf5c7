import Mathlib.Data.List.Perm.Subperm
import NodeWatch.Proofs.Config.Timing
import NodeWatch.Proofs.Service.View
import NodeWatch.Status

/-!
The life cycle of a service: what starts and stops do, whoever calls them.

Calls hold the lock one after the other. What they have done so far is read off the history of a
run: a start that has got through lasts until a stop returns. As long as no stop has failed, the
flags, the tasks and what the service shows of itself agree with that history whenever no call is
under way. After one has failed, the service counts as running for ever and does nothing any more.
-/

namespace NodeWatch.Service.Controls

/-! ### What calls have done -/

/-- A start finds no tasks of another. It will return without an error, unless it fails to write to
its log. -/
def Moment.started (m : Moment) : Bool :=
  match m.turn, m.before.start with
  | .start, .ok _ => true
  | _, _ => false

/-- A stop returns, after its work or at once. -/
def Moment.stopped (m : Moment) : Bool :=
  match m.turn with
  | .leave => true
  | .stop => m.before.run.isNone
  | _ => false

/-- A start fails, when it is done. -/
def Moment.startFails (m : Moment) : Bool :=
  match m.turn with
  | .launch logged => m.before.failsToLaunch logged
  | _ => false

/-- A stop fails, and does not return. -/
def Moment.stopFails (m : Moment) : Bool :=
  match m.turn with
  | .wait now => m.before.failsToWait now
  | _ => false

/-- A task fails. -/
def Moment.taskFails (m : Moment) : Bool :=
  match m.turn with
  | .prepare _ now => m.before.failsToPrepare now
  | .skip id now => (m.before.task? id).any fun k => m.before.failsToSkip k.sweeps now
  | .sweep _ _ _ => !m.before.gated.canSweep
  | _ => false

/-- A call that does not return at once has got the lock. -/
def Moment.entered (m : Moment) : Bool := m.started || m.turn matches .stop && m.before.run.isSome

/-- Such a call gives the lock back. -/
def Moment.left (m : Moment) : Bool := m.stopFails || m.turn matches .launch _ | .leave

/-- The one has happened, and the other has not happened since. -/
def since (p q : Moment → Bool) : List Moment → Bool
  | [] => false
  | m :: past => p m || !q m && since p q past

/-- A start has got through that no stop has undone. -/
def unstopped (past : List Moment) : Bool := since Moment.started Moment.stopped past

/-- A stop has returned, and no start has got through since. -/
def atRest (past : List Moment) : Bool := since Moment.stopped Moment.started past

/-- A start or a stop holds the lock. -/
def underWay (past : List Moment) : Bool := since Moment.entered Moment.left past

/-- A caller has the service sweep, or a look ends that a caller began. -/
def Turn.isAsked : Turn → Bool
  | .other (.sweep ..) => true
  | .other (.finish look _ _) => !look.background
  | _ => false

/-- A step that a call makes of its own. -/
def Turn.isCall : Turn → Bool
  | .launch _ | .raise | .wait _ | .abort _ | .lower | .leave => true
  | _ => false

variable {c₀ c c' : Controls} {past : List Moment} {turn : Turn} {es : List Event}
  {ids : List Nat}

/-! ### What the lock and the tasks tell of it -/

/-- Nobody has called yet. -/
structure Untouched (c : Controls) : Prop where
  sound : c.Sound
  lock : c.lock = .free
  run : c.run = none
  calm : c.core.jammed = false

lemma untouched_of_make {config : Config.Discovery} {backend : String} {pins : Bool} {m : Metrics}
    {clock : Time.Clock} {s : Service} (h : make config backend pins m clock = .ok s) :
    Untouched { core := s } :=
  ⟨sound_of_make h, rfl, rfl, (new_of_make h).2.2.2.1⟩

/-- **The lock is held just while a call is under way.** -/
lemma Run.lock_eq_free_iff (h : Run c₀ past c) (h₀ : Untouched c₀) :
    c.lock = .free ↔ underWay past = false := by
  induction h with
  | start => simp [h₀.lock, underWay, since]
  | step run made ih =>
    rw [underWay] at ih ⊢
    cases steps_of_step? made <;>
      simp_all [since, Moment.entered, Moment.left, Moment.started, Moment.stopFails,
        Controls.start, Controls.hire, Controls.raise, Controls.jam, Controls.failsToWait,
        Controls.setLook, Controls.setReady, Controls.endTask]

/-- A stop that fails jams the service, and nothing else does. -/
lemma Steps.jammed_eq (made : Steps c turn es c') :
    c'.core.jammed = (c.core.jammed || Moment.stopFails ⟨c, turn, es⟩) := by
  cases made with
  | waited lock later told => simp [Moment.stopFails, failsToWait, told]
  | jammed lock later untold =>
    simp [Moment.stopFails, failsToWait, untold, Controls.jam, Service.jam]
  | @finished id now result sweeps ready l found quiet =>
    rw [Moment.stopFails, Bool.or_false]
    exact (c.gated.endLook_keeps l result now).2
  | @swept id now places look found quiet told =>
    rw [Moment.stopFails, Bool.or_false]
    exact (c.gated.sweep_frame now places).2.2.1
  | @aborted id ids k lock found mem =>
    rw [Moment.stopFails, Bool.or_false]
    cases hlook : k.look <;> rfl
  | @other a es core free made =>
    have hjammed : core.jammed = c.gated.jammed := jammed_of_isFree free made
    rw [Moment.stopFails, Bool.or_false]
    exact hjammed
  | _ => exact (Bool.or_false _).symm

/-- A service is jammed just if a stop has failed. -/
lemma Run.jammed_iff (h : Run c₀ past c) (h₀ : Untouched c₀) :
    c.core.jammed = true ↔ ∃ m ∈ past, m.stopFails = true := by
  induction h with
  | start => simp [h₀.calm]
  | step run made ih =>
    rw [List.exists_mem_cons_iff, (steps_of_step? made).jammed_eq, Bool.or_eq_true, ih, or_comm]

lemma Run.calm (h : Run c₀ past c) (h₀ : Untouched c₀)
    (hcalm : ∀ m ∈ past, m.stopFails = false) : c.core.jammed = false := by
  by_contra hj
  obtain ⟨m, hm, hfails⟩ := (h.jammed_iff h₀).mp (by simpa using hj)
  simp [hcalm m hm] at hfails

/-- **As long as no stop has failed, a start lasts until its tasks are not recorded any more and no
call has them.** -/
lemma Run.unstopped_iff (h : Run c₀ past c) (h₀ : Untouched c₀)
    (hcalm : ∀ m ∈ past, m.stopFails = false) :
    unstopped past = true ↔ c.lock ≠ .free ∨ c.run ≠ none := by
  induction h with
  | start => simp [h₀.lock, h₀.run, unstopped, since]
  | step run made ih =>
    obtain ⟨hhead, hcalm⟩ := List.forall_mem_cons.mp hcalm
    replace ih := ih hcalm
    rw [unstopped] at ih ⊢
    cases steps_of_step? made with
    | left lock =>
      have hrun := (run.sound h₀.sound).vacant (by simp [lock])
      simp [since, Moment.stopped, Moment.started, hrun]
    | jammed lock later untold => simp [Moment.stopFails, failsToWait, untold] at hhead
    | _ =>
      simp_all [since, Moment.stopped, Moment.started, Controls.start, Controls.hire,
        Controls.raise, Controls.setLook, Controls.setReady, Controls.endTask]

/-- Once a stop has returned, nothing happens to lock and tasks until the next start. -/
lemma Run.free_of_atRest (h : Run c₀ past c) (h₀ : Untouched c₀) (hrest : atRest past = true) :
    c.lock = .free ∧ c.run = none := by
  induction h with
  | start => simp [atRest, since] at hrest
  | step run made ih =>
    rw [atRest] at ih hrest
    cases steps_of_step? made with
    | left lock => exact ⟨rfl, (run.sound h₀.sound).vacant (by simp [lock])⟩
    | _ =>
      simp_all [since, Moment.stopped, Moment.started, Controls.start, Controls.setLook,
        Controls.setReady, Controls.endTask]

/-- The settings are those of the start. -/
lemma Run.settings (h : Run c₀ past c) (h₀ : c₀.Sound) :
    c.core.settings = c₀.core.settings := by
  have hview : c.view.settings = c₀.view.settings := Service.Run.settings (h.view h₀)
  exact hview

/-! ### How many tasks there are -/

lemma map_id_setLook (id : Nat) (look : Option Look) :
    (c.setLook id look).tasks.map (·.id) = c.tasks.map (·.id) := by
  rw [Controls.setLook, List.map_map]
  exact List.map_congr_left fun t _ => by simp only [Function.comp_apply]; split <;> rfl

lemma map_id_setReady (id : Nat) : (c.setReady id).tasks.map (·.id) = c.tasks.map (·.id) := by
  rw [Controls.setReady, List.map_map]
  exact List.map_congr_left fun t _ => by simp only [Function.comp_apply]; split <;> rfl

/-- A step of which no task is over leaves the numbers as they are, unless it hires. -/
lemma Steps.full (h : c.Sound) (hj : c.core.jammed = false) (made : Steps c turn es c')
    (hhead : Moment.taskFails ⟨c, turn, es⟩ = false)
    (hfull : c.stopping = false → ∀ ids, c.hired? = some ids → c.tasks.map (·.id) = ids)
    (hs : c'.stopping = false) (hired : c'.hired? = some ids) : c'.tasks.map (·.id) = ids := by
  have hcalm := h.calm hj
  cases made with
  | started free idle =>
    have hnone : c.tasks = [] := hcalm.idle (by rw [hired?, free, idle])
    simpa [hired?, Controls.hire, hnone] using hired
  | refused free busy => exact hfull hs ids hired
  | launched lock => exact hfull hs ids (by rw [hired?, lock]; exact hired)
  | spared free idle => exact hfull hs ids hired
  | took free busy => exact hfull hs ids (by rw [hired?, free, busy]; exact hired)
  | raised lock => simp [Controls.raise] at hs
  | waited lock later told => exact hfull hs ids (by rw [hired?, lock]; exact hired)
  | jammed lock later untold => simp [hired?, Controls.jam, h.vacant (by simp [lock])] at hired
  | lowered lock gone => simp [hired?] at hired
  | left lock => simp [hired?, h.vacant (by simp [lock])] at hired
  | prepared found told => exact (map_id_setReady _).trans (hfull hs ids hired)
  | unprepared found untold => simp [Moment.taskFails, untold] at hhead
  | skipped found told => exact hfull hs ids hired
  | missed found untold => simp [Moment.taskFails, found, untold] at hhead
  | ticked found untold => exact (map_id_setLook _ _).trans (hfull hs ids hired)
  | finished found quiet => exact (map_id_setLook _ _).trans (hfull hs ids hired)
  | swept found quiet told => exact hfull hs ids hired
  | unswept found quiet untold => simp [Moment.taskFails, untold] at hhead
  | ended found told =>
    obtain ⟨hk, -⟩ := mem_of_task? found
    have hup := (hcalm.told _ hk).mp told
    exact absurd (hup.symm.trans hs) (by simp)
  | aborted lock found mem =>
    have hup : c.stopping = true := by rw [hcalm.stopping, raises, lock]
    exact absurd (hup.symm.trans hs) (by simp)
  | other free made => exact hfull hs ids hired

/-- **Both tasks of a start are there until a stop tells them to end, unless one has failed.** -/
lemma Run.full (h : Run c₀ past c) (h₀ : Untouched c₀)
    (hcalm : ∀ m ∈ past, m.stopFails = false) (hfull : ∀ m ∈ past, m.taskFails = false)
    (hs : c.stopping = false) (hired : c.hired? = some ids) : c.tasks.map (·.id) = ids := by
  induction h generalizing ids with
  | start => simp [hired?, h₀.lock, h₀.run] at hired
  | step run made ih =>
    obtain ⟨-, hcalm⟩ := List.forall_mem_cons.mp hcalm
    obtain ⟨hhead, hfull⟩ := List.forall_mem_cons.mp hfull
    exact (steps_of_step? made).full (run.sound h₀.sound) (run.calm h₀ hcalm) hhead
      (fun hs ids hired => ih hcalm hfull hs hired) hs hired

/-- There are never more tasks than those of the last start. -/
lemma Sound.length_tasks_le (h : c.Sound) (hj : c.core.jammed = false) (hlock : c.lock = .free) :
    c.tasks.length ≤ if c.run.isSome then 2 else 0 := by
  have hcalm := h.calm hj
  cases hrun : c.run with
  | none => rw [hcalm.idle (by rw [hired?, hlock, hrun])]; exact Nat.le_refl 0
  | some ids =>
    obtain ⟨n, rfl, -⟩ := h.hired ids (by rw [hired?, hlock, hrun])
    have hsub : c.tasks.map (·.id) ⊆ [n, n + 1] := fun id hid => by
      obtain ⟨k, hk, rfl⟩ := List.mem_map.mp hid
      obtain ⟨n', hired, hid⟩ := hcalm.staffed k hk
      rw [hired?, hlock, hrun] at hired
      rw [hid, Option.some.inj hired]
      cases k.sweeps <;> simp
    have hle := (h.crew.distinct.subperm hsub).length_le
    simpa using hle

/-- As long as no task has failed, there are as many. -/
lemma Run.length_tasks (h : Run c₀ past c) (h₀ : Untouched c₀)
    (hcalm : ∀ m ∈ past, m.stopFails = false) (hfull : ∀ m ∈ past, m.taskFails = false)
    (hlock : c.lock = .free) : c.tasks.length = if c.run.isSome then 2 else 0 := by
  have hsound := h.sound h₀.sound
  have hflags := hsound.calm (h.calm h₀ hcalm)
  cases hrun : c.run with
  | none => rw [hflags.idle (by rw [hired?, hlock, hrun])]; rfl
  | some ids =>
    have hired : c.hired? = some ids := by rw [hired?, hlock, hrun]
    obtain ⟨n, rfl, -⟩ := hsound.hired ids hired
    have hids := h.full h₀ hcalm hfull (by rw [hflags.stopping, raises, hlock]) hired
    simpa using congrArg List.length hids

/-! ### What a call finds -/

lemma start_eq_ok_iff : (∃ c', c.start = .ok c') ↔ c.run = none := by
  unfold start
  cases c.run <;> simp

/-- A start that finds the tasks of another fails and leaves everything as it is. -/
lemma start_of_run (hlock : c.lock = .free) (hrun : c.run = some ids) :
    c.start = .error .alreadyRunning ∧ c.step? .start = some ([], c) := by
  have hstart : c.start = .error .alreadyRunning := by rw [start, hrun]
  exact ⟨hstart, by rw [step?, if_pos hlock, hstart]⟩

/-- A start that succeeds leaves two tasks and is under way; the service is as it was. -/
lemma start_of_idle (hlock : c.lock = .free) (hrun : c.run = none) :
    ∃ c' new, c.start = .ok c' ∧ c.step? .start = some ([], c') ∧ c'.core = c.core ∧
      c'.tasks = c.tasks ++ new ∧ new.length = 2 := by
  have hstart : ∃ c' new, c.start = .ok c' ∧ c'.core = c.core ∧ c'.tasks = c.tasks ++ new ∧
      new.length = 2 := by
    rw [start, hrun]
    exact ⟨_, _, rfl, rfl, rfl, rfl⟩
  obtain ⟨c', new, hok, hcore, htasks, hlength⟩ := hstart
  exact ⟨c', new, hok, by rw [step?, if_pos hlock, hok], hcore, htasks, hlength⟩

lemma stop_of_idle (hlock : c.lock = .free) (hrun : c.run = none) :
    c.step? .stop = some ([], c) := by
  rw [step?, if_pos hlock, hrun]

/-- A start fails at its end if it writes to its log a span that cannot be told. -/
lemma failsToLaunch_iff {config : Config.Discovery} {backend : String} {pins : Bool}
    {clock : Time.Clock} (h : c.core.settings = .ofConfig config backend pins clock)
    (logged : Bool) : c.failsToLaunch logged = true ↔
      logged = true ∧ (config.stalenessThreshold? = none ∨ config.sweepInterval? = none) := by
  rw [failsToLaunch, h, Settings.hasThreshold_ofConfig, Settings.hasPeriod_ofConfig]
  cases config.stalenessThreshold? <;> cases config.sweepInterval? <;> simp

/-- A stop fails if the clock does not go as far as its deadline. -/
lemma failsToWait_iff {config : Config.Discovery} {backend : String} {pins : Bool}
    {clock : Time.Clock} (h : c.core.settings = .ofConfig config backend pins clock) (now : Nat) :
    c.failsToWait now = true ↔
      clock.last < now + clock.ofSeconds config.shutdownGraceSecs.toNat := by
  simp [failsToWait, h, Settings.hasDeadline, Settings.ofConfig, Time.Clock.tells]

lemma wait_of_fails {now : Nat} (hlock : c.lock = .raised ids) (hlater : c.now ≤ now)
    (hfails : c.failsToWait now = true) : c.step? (.wait now) = some ([], c.jam now) := by
  simp only [step?, hlock, hlater, hfails, if_true]
  rfl

/-! ### What changes the roster -/

/-- Without tasks, the roster changes only when somebody asks for it. -/
lemma roster_of_idle (hnone : c.tasks = []) (made : c.step? turn = some (es, c')) :
    turn.isAsked = true ∨ es = [] ∧ c'.core.roster = c.core.roster := by
  have habsent : ∀ id, c.task? id = none := fun id => by simp [task?, hnone]
  cases steps_of_step? made with
  | prepared found told => simp [habsent] at found
  | unprepared found untold => simp [habsent] at found
  | skipped found told => simp [habsent] at found
  | missed found untold => simp [habsent] at found
  | ticked found untold => simp [habsent] at found
  | finished found quiet => simp [habsent] at found
  | swept found quiet told => simp [habsent] at found
  | unswept found quiet untold => simp [habsent] at found
  | ended found told => simp [habsent] at found
  | aborted lock found mem => simp [habsent] at found
  | @other a _ core free done =>
    by_cases hasked : (Turn.other a).isAsked = true
    · exact .inl hasked
    · have hround := step?_round done
      cases a with
      | finish l result now => exact absurd free hasked
      | sweep now places => simp [Turn.isAsked] at hasked
      | sweepTick now places => simp [isFree] at free
      | _ => exact .inr ⟨congrArg Prod.fst hround, congrArg Prod.snd hround⟩
  | _ => exact .inr ⟨rfl, rfl⟩

/-- While the flag is up, every round is discarded. -/
lemma roster_of_stopping (hs : c.stopping = true) (made : c.step? turn = some (es, c')) :
    es = [] ∧ c'.core.roster = c.core.roster := by
  have hgate : c.gated.phase = .stopping := by simp [gated, hs]
  cases steps_of_step? made with
  | @finished id now result sweeps ready l found quiet =>
    obtain ⟨t, ht, hroster, -, hphase, -⟩ := c.gated.endLook_eq l result now
    have hround := t.commit_round (seen result) now
    rw [if_pos (hphase.trans hgate), ← ht, hroster] at hround
    exact Prod.mk.inj hround
  | @swept id now places look found quiet told =>
    have hround := c.gated.sweep_round now places
    rw [round, if_pos hgate] at hround
    exact Prod.mk.inj hround
  | @aborted id ids k lock found mem => cases hlook : k.look <;> exact ⟨rfl, rfl⟩
  | @other a _ core free done =>
    have hround := step?_round done
    cases a with
    | finish l result now =>
      rw [round, if_pos hgate] at hround
      exact Prod.mk.inj hround
    | sweep now places =>
      rw [round, if_pos hgate] at hround
      exact Prod.mk.inj hround
    | sweepTick now places => simp [isFree] at free
    | _ => exact ⟨congrArg Prod.fst hround, congrArg Prod.snd hround⟩
  | _ => exact ⟨rfl, rfl⟩

/-! ### Calls come to an end -/

/-- Steps that a call makes of its own lead from one state to another. -/
def Leads (c c' : Controls) : Prop :=
  ∃ more, Run c more c' ∧ ∀ m ∈ more, m.turn.isCall = true

lemma Leads.trans {c'' : Controls} (h : Leads c c') (h' : Leads c' c'') : Leads c c'' := by
  obtain ⟨more, hrun, hcall⟩ := h
  obtain ⟨more', hrun', hcall'⟩ := h'
  refine ⟨more' ++ more, hrun.append hrun', fun m hm => ?_⟩
  rcases List.mem_append.mp hm with hm | hm
  · exact hcall' m hm
  · exact hcall m hm

lemma leads_of_step (made : c.step? turn = some (es, c')) (hcall : turn.isCall = true) :
    Leads c c' :=
  ⟨_, Run.start.step made, by simpa using hcall⟩

/-- A stop that waits gets rid of its tasks, whatever they wait for. -/
lemma Sound.leads_idle (h : c.Sound) (hlock : c.lock = .waiting ids) :
    ∃ c', Leads c c' ∧ c'.lock = .waiting ids ∧ c'.tasks = [] := by
  generalize hn : c.tasks.length = n
  induction n using Nat.strongRecOn generalizing c with
  | _ n ih =>
    cases htasks : c.tasks with
    | nil => exact ⟨c, ⟨[], .start, by simp⟩, hlock, htasks⟩
    | cons k rest =>
      have hk : k ∈ c.tasks := by simp [htasks]
      have hfound : c.task? k.id = some k := by simp [task?, htasks]
      have hmem : k.id ∈ ids := by
        obtain ⟨n, hired, hid⟩ := (h.calm (h.jammed_of_waiting hlock)).staffed k hk
        rw [hired?, hlock] at hired
        rw [hid, Option.some.inj hired]
        cases k.sweeps <;> simp
      have made : c.step? (.abort k.id) =
          some ([], { c with core := k.look.elim c.core c.core.closeLook }.endTask k.id) := by
        simp only [step?, hlock, hfound, hmem, if_true]
      have hshorter : (c.endTask k.id).tasks.length < n := by
        rw [← hn, Controls.endTask, htasks, List.filter_cons_of_neg (by simp)]
        exact Nat.lt_succ_of_le (List.length_filter_le _ _)
      obtain ⟨c', hleads, hlock', hnone⟩ :=
        ih _ hshorter (h.step (steps_of_step? made)) hlock rfl
      exact ⟨c', (leads_of_step made rfl).trans hleads, hlock', hnone⟩

lemma leads_of_lowered (hlock : c.lock = .lowered) : ∃ c', Leads c c' ∧ c'.lock = .free := by
  have made : c.step? .leave = some ([], { c with lock := .free, running := false }) := by
    rw [step?, if_pos hlock]
  exact ⟨_, leads_of_step made rfl, rfl⟩

lemma Sound.leads_of_waiting (h : c.Sound) (hlock : c.lock = .waiting ids) :
    ∃ c', Leads c c' ∧ c'.lock = .free := by
  obtain ⟨c₁, hleads₁, hlock₁, hnone⟩ := h.leads_idle hlock
  have made : c₁.step? .lower = some ([], { c₁ with lock := .lowered, stopping := false }) := by
    simp [step?, hlock₁, hnone]
  obtain ⟨c₂, hleads₂, hfree⟩ :=
    leads_of_lowered (c := { c₁ with lock := .lowered, stopping := false }) rfl
  exact ⟨c₂, (hleads₁.trans (leads_of_step made rfl)).trans hleads₂, hfree⟩

/-- A stop that has raised its flag waits for its tasks, or fails at once. -/
lemma Sound.leads_of_raised (h : c.Sound) (hlock : c.lock = .raised ids) :
    ∃ c', Leads c c' ∧ c'.lock = .free := by
  cases hfails : c.failsToWait c.now with
  | true =>
    have made := wait_of_fails hlock (Nat.le_refl _) hfails
    exact ⟨_, leads_of_step made rfl, rfl⟩
  | false =>
    have made : c.step? (.wait c.now) = some ([], { c with lock := .waiting ids }) := by
      simp only [step?, hlock, hfails, Nat.le_refl, if_true]
      rfl
    obtain ⟨c', hleads, hfree⟩ := (h.step (steps_of_step? made)).leads_of_waiting rfl
    exact ⟨c', (leads_of_step made rfl).trans hleads, hfree⟩

/-- **A call that is under way can always come to its end, whatever the looks do.** -/
lemma Sound.leads_free (h : c.Sound) : ∃ c', Leads c c' ∧ c'.lock = .free := by
  cases hlock : c.lock with
  | free => exact ⟨c, ⟨[], .start, by simp⟩, hlock⟩
  | starting ids =>
    have made : c.step? (.launch false) =
        some ([], { c with lock := .free, run := some ids, running := true }) := by
      simp only [step?, hlock]
    exact ⟨_, leads_of_step made rfl, rfl⟩
  | taken ids =>
    have made : c.step? .raise = some ([], c.raise ids) := by
      simp only [step?, hlock]
      rfl
    obtain ⟨c', hleads, hfree⟩ := (h.step (steps_of_step? made)).leads_of_raised rfl
    exact ⟨c', (leads_of_step made rfl).trans hleads, hfree⟩
  | raised ids => exact h.leads_of_raised hlock
  | waiting ids => exact h.leads_of_waiting hlock
  | lowered => exact leads_of_lowered hlock

/-! ### The life cycle -/

/-- The answer of the service on whether it is ready. -/
lemma code_ready (s : Service) (clock : Status.Clock) {r : Status.Request}
    (hpath : r.path = "/health/ready") (hmethod : r.method = "GET" ∨ r.method = "HEAD") :
    (Status.respond s clock r).code = if s.isRunning then 200 else 503 := by
  have hpage : Status.Page.ofPath? r.path = some .ready := by
    rw [hpath]
    decide
  unfold Status.respond
  rw [hpage]
  rcases hmethod with hm | hm
  · simp [hm, Status.page]
  · simp [hm, Status.page]

/-- The service shows that it runs, or that it does not, wherever it is asked. -/
structure Shows (c : Controls) (runs : Bool) : Prop where
  running : c.running = runs
  isRunning : c.view.isRunning = runs
  ready : ∀ (clock : Status.Clock) (r : Status.Request), r.path = "/health/ready" →
    r.method = "GET" ∨ r.method = "HEAD" →
    (Status.respond c.shown clock r).code = if runs then 200 else 503

lemma shows_of_flags {runs : Bool} (hrunning : c.running = runs)
    (hview : c.view.isRunning = runs) : c.Shows runs where
  running := hrunning
  isRunning := hview
  ready clock r hpath hmethod := by
    rw [code_ready _ _ hpath hmethod, shown, hrunning]
    cases runs <;> rfl

variable {config : Config.Discovery} {backend : String} {pins : Bool} {metrics : Metrics}
  {clock : Time.Clock} {s₀ : Service}

/-- **What starts and stops do.** Calls take turns, and each can come to its end. As long as no stop
has failed, a start gets through unless an earlier one has not been stopped, and then it changes
nothing; a stop that finds nothing to stop changes nothing either. When no call is under way, the
service counts as running just while a start has not been stopped, and it has the two tasks of that
start but for those that have failed. And once a stop has returned, nothing is left in the
background: until the next start gets through, the roster changes only when a caller asks for it.

A start fails at its end just if it logs a multiple of the interval that is no span, and a stop
before it waits just if the clock does not go as far as its deadline. After that, the service counts
as running for ever, and nothing changes the roster any more. -/
theorem calls_take_turns (hmake : make config backend pins metrics clock = .ok s₀)
    (hrun : Run { core := s₀ } past c) :
    (underWay past = true → c.step? .start = none ∧ c.step? .stop = none ∧
      ∃ more c', Run c more c' ∧ (∀ m ∈ more, m.turn.isCall = true) ∧
        underWay (more ++ past) = false) ∧
    ((∀ m ∈ past, m.stopFails = false) →
      (underWay past = false →
        ((∃ c', c.start = .ok c') ↔ unstopped past = false) ∧
        (unstopped past = true →
          c.start = .error .alreadyRunning ∧ c.step? .start = some ([], c)) ∧
        (unstopped past = false →
          (∃ c' new, c.start = .ok c' ∧ c.step? .start = some ([], c') ∧ c'.core = c.core ∧
            c'.tasks = c.tasks ++ new ∧ new.length = 2) ∧
          c.step? .stop = some ([], c)) ∧
        c.tasks.length ≤ (if unstopped past then 2 else 0) ∧
        ((∀ m ∈ past, m.taskFails = false) →
          c.tasks.length = if unstopped past then 2 else 0) ∧
        c.Shows (unstopped past)) ∧
      (atRest past = true → underWay past = false ∧ unstopped past = false ∧
        c.tasks = [] ∧ c.core.own = [] ∧
        ∀ turn es c', c.step? turn = some (es, c') →
          turn.isAsked = true ∨ es = [] ∧ c'.core.roster = c.core.roster)) ∧
    ((∃ m ∈ past, m.stopFails = true) → c.Shows true ∧
      ∀ turn es c', c.step? turn = some (es, c') → es = [] ∧ c'.core.roster = c.core.roster) ∧
    (∀ logged, c.failsToLaunch logged = true ↔
      logged = true ∧ (config.stalenessThreshold? = none ∨ config.sweepInterval? = none)) ∧
    ∀ now, c.failsToWait now = true ↔
      clock.last < now + clock.ofSeconds config.shutdownGraceSecs.toNat := by
  have h₀ : Untouched { core := s₀ } := untouched_of_make hmake
  have hsound := hrun.sound h₀.sound
  have hfree := hrun.lock_eq_free_iff h₀
  have hsettings : c.core.settings = .ofConfig config backend pins clock :=
    (hrun.settings h₀.sound).trans (new_of_make hmake).2.1
  refine ⟨fun hbusy => ?turns, fun hcalm => ⟨fun hidle => ?settled, fun hrest => ?rest⟩,
    fun hfailed => ?failed, failsToLaunch_iff hsettings, failsToWait_iff hsettings⟩
  case turns =>
    have hlock : c.lock ≠ .free := fun hl => by simp [hfree.mp hl] at hbusy
    obtain ⟨c', ⟨more, hmore, hcall⟩, hlock'⟩ := hsound.leads_free
    have hover := ((hrun.append hmore).lock_eq_free_iff h₀).mp hlock'
    exact ⟨by rw [step?, if_neg hlock], by rw [step?, if_neg hlock], more, c', hmore, hcall, hover⟩
  case settled =>
    have hlock := hfree.mpr hidle
    have hj := hrun.calm h₀ hcalm
    have hrun' : unstopped past = c.run.isSome := by
      rw [Bool.eq_iff_iff, hrun.unstopped_iff h₀ hcalm, Option.isSome_iff_ne_none]
      simp [hlock]
    have hrunning : c.running = unstopped past := by
      rw [(hsound.calm hj).running, counts, hlock, hrun']
    have hview : c.view.isRunning = unstopped past := by
      rw [isRunning, view_phase, phase_of_calm hj, raises, hired?, hlock, hrun']
      cases c.run <;> rfl
    refine ⟨?_, fun h => ?_, fun h => ?_, ?_, fun hfull => ?_, shows_of_flags hrunning hview⟩
    · rw [start_eq_ok_iff, hrun']
      simp
    · obtain ⟨ids, hids⟩ := Option.isSome_iff_exists.mp (hrun' ▸ h)
      exact start_of_run hlock hids
    · have hnone : c.run = none := by simpa [hrun'] using h
      exact ⟨start_of_idle hlock hnone, stop_of_idle hlock hnone⟩
    · rw [hrun']
      exact hsound.length_tasks_le hj hlock
    · rw [hrun']
      exact hrun.length_tasks h₀ hcalm hfull hlock
  case rest =>
    obtain ⟨hlock, hnone⟩ := hrun.free_of_atRest h₀ hrest
    have htasks : c.tasks = [] :=
      (hsound.calm (hrun.calm h₀ hcalm)).idle (by rw [hired?, hlock, hnone])
    refine ⟨hfree.mp hlock, ?_, htasks, ?_, fun turn es c' made => roster_of_idle htasks made⟩
    · simpa [hlock, hnone] using hrun.unstopped_iff h₀ hcalm
    · exact hsound.crew.looks_eq_nil (by simp [htasks])
  case failed =>
    have hj := (hrun.jammed_iff h₀).mpr hfailed
    have hstuck := hsound.stuck hj
    have hview : c.view.isRunning = true := by
      rw [isRunning, view_phase, phase_of_jammed hj]
      rfl
    exact ⟨shows_of_flags hstuck.running hview,
      fun turn es c' made => roster_of_stopping hstuck.stopping made⟩

/-- **A stop that fails half way.** The settings are valid, but no clock goes as far as the stop
would wait. Afterwards no call is under way, the service counts as running, and a start gets through
though the one before has not been stopped. -/
theorem start_after_failed_stop :
    let config : Config.Discovery := { shutdownGraceSecs := 9223372036854775807 }
    config.fault? = none ∧ ∃ s past c c', make config "static" true {} = .ok s ∧
      Run { core := s } past c ∧
      (∃ m ∈ past, m.stopFails = true) ∧ underWay past = false ∧ unstopped past = true ∧
      c.running = true ∧ c.start = .ok c' := by
  intro config
  let s : Service :=
    { settings := .ofConfig config "static" true, workers := { bus := .ofCapacity 256 } }
  have hfault : config.fault? = none := by decide
  have hmake : make config "static" true {} = .ok s := by
    rw [make, hfault]
    rfl
  have h₁ : Run { core := s } _ _ := Run.start.step (t := .start) rfl
  have h₂ := h₁.step (t := .launch true) rfl
  have h₃ := h₂.step (t := .stop) rfl
  have h₄ := h₃.step (t := .raise) rfl
  have hfails := (failsToWait_iff (c := { core := s }) rfl 0).mpr (by decide)
  have h₅ := h₄.step (t := .wait 0) (wait_of_fails rfl (Nat.le_refl 0) hfails)
  have hover := (h₅.lock_eq_free_iff (untouched_of_make hmake)).mp rfl
  exact ⟨hfault, s, _, _, _, hmake, h₅, ⟨_, List.mem_cons_self, hfails⟩, hover, rfl, rfl, rfl⟩

/-- A stop is done with a look that never ends. -/
theorem calls_take_turns_for_hung_look :
    ∃ (past : List Moment) (c : Controls), Run { core := fresh } past c ∧
      past.reverse.map (·.turn.isCall) =
        [false, true, false, false, true, true, true, false, true, true] ∧
      atRest past = true ∧ c.tasks = [] ∧ c.core.own = [] ∧ c.running = false ∧
      c.core.nextLook = 1 ∧ ∃ c', c.start = .ok c' := by
  have h₁ : Run { core := fresh } _ _ := Run.start.step (t := .start) rfl
  have h₂ := h₁.step (t := .launch true) rfl
  have h₃ := h₂.step (t := .tick 0) rfl
  have h₄ := h₃.step (t := .stop) rfl
  have h₅ := h₄.step (t := .raise) rfl
  have h₆ := h₅.step (t := .wait 0) rfl
  have h₇ := h₆.step (t := .abort 0) rfl
  have h₈ := h₇.step (t := .quit 1) rfl
  have h₉ := h₈.step (t := .lower) rfl
  have h₁₀ := h₉.step (t := .leave) rfl
  obtain ⟨-, hcalm, -⟩ := calls_take_turns make_fresh h₁₀
  obtain ⟨hsettled, hrest⟩ := hcalm (by decide)
  obtain ⟨hidle, hstopped, htasks, hown, -⟩ := hrest rfl
  obtain ⟨hstart, -, -, -, -, hshows⟩ := hsettled hidle
  exact ⟨_, _, h₁₀, rfl, rfl, htasks, hown, hshows.running.trans hstopped, rfl,
    hstart.mpr hstopped⟩

end NodeWatch.Service.Controls
