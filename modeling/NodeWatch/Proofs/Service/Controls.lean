import NodeWatch.Proofs.Service.Crew

/-!
What is always true of the controls.

As long as no stop has failed, the tasks of the background are those of the last start that has not
been stopped, and a stop raises its flag before it waits for them. Once a stop has failed, the flags
stay as they are, and no later stop comes further than that one.
-/

namespace NodeWatch.Service.Controls

/-- A stop has raised its flag and has not lowered it. -/
def raises (c : Controls) : Bool :=
  match c.lock with
  | .raised _ | .waiting _ => true
  | _ => false

/-- A start is through and no stop that is through has undone it. -/
def counts (c : Controls) : Bool :=
  match c.lock with
  | .free => c.run.isSome
  | .starting _ => false
  | _ => true

/-- The tasks that may be there: of the last start, unless a stop is done with them. -/
def hired? (c : Controls) : Option (List Nat) :=
  match c.lock with
  | .free => c.run
  | .starting ids | .taken ids | .raised ids | .waiting ids => some ids
  | .lowered => none

/-- What is true of the flags and the tasks as long as no stop has failed. -/
structure Calm (c : Controls) : Prop where
  running : c.running = c.counts
  stopping : c.stopping = c.raises
  staffed : ∀ k ∈ c.tasks, ∃ n, c.hired? = some [n, n + 1] ∧ k.id = if k.sweeps then n + 1 else n
  told : ∀ k ∈ c.tasks, k.id ∈ c.told ↔ c.stopping = true

/-- What is true of them once a stop has failed: no stop waits any more. -/
structure Stuck (c : Controls) : Prop where
  running : c.running = true
  stopping : c.stopping = true
  untold : c.core.settings.hasDeadline c.now = false
  waits : ∀ ids, c.lock ≠ .waiting ids
  lowered : c.lock ≠ .lowered

/-- What is always true of the controls. -/
structure Sound (c : Controls) : Prop where
  crew : Crew c.tasks c.nextTask c.core.own
  told : ∀ id ∈ c.told, id < c.nextTask
  ready : ∀ k ∈ c.tasks, k.ready = true → c.core.settings.hasPeriod = true
  vacant : c.lock ≠ .free → c.run = none
  hired : ∀ ids, c.hired? = some ids → ∃ n, ids = [n, n + 1] ∧ n + 1 < c.nextTask
  calm : c.core.jammed = false → Calm c
  stuck : c.core.jammed = true → Stuck c

variable {c c' : Controls} {turn : Turn} {es : List Event} {ids : List Nat} {id now : Nat}
  {k : Task} {l : Look}

/-! ### What follows for flags and phase -/

/-- Somebody is still there whom no stop has told to end: the service runs. -/
lemma Calm.phase_eq (h : c.Calm) (hcalm : c.core.jammed = false) (hk : k ∈ c.tasks)
    (hs : c.stopping = false) : c.phase = .running := by
  obtain ⟨n, hired, -⟩ := h.staffed k hk
  have hraises := h.stopping
  unfold hired? at hired
  unfold raises at hraises
  unfold phase
  cases hlock : c.lock <;> simp_all

/-- A stop that has waited for its tasks has left none. -/
lemma Calm.tasks_eq_nil (h : c.Calm) (hired : c.hired? = some ids)
    (gone : ∀ k ∈ c.tasks, k.id ∉ ids) : c.tasks = [] := by
  refine List.eq_nil_iff_forall_not_mem.mpr fun k hk => gone k hk ?_
  obtain ⟨n, hired', hid⟩ := h.staffed k hk
  obtain rfl := Option.some.inj (hired.symm.trans hired')
  rw [hid]
  cases k.sweeps <;> simp

/-- Nobody is left without having been hired. -/
lemma Calm.idle (h : c.Calm) (hired : c.hired? = none) : c.tasks = [] := by
  refine List.eq_nil_iff_forall_not_mem.mpr fun k hk => ?_
  obtain ⟨n, hsome, -⟩ := h.staffed k hk
  simp [hired] at hsome

namespace Sound

/-- A stop that waits has not failed, and none before it. -/
lemma jammed_of_waiting (h : c.Sound) (lock : c.lock = .waiting ids) : c.core.jammed = false := by
  by_contra hj
  exact (h.stuck (by simpa using hj)).waits ids lock

lemma jammed_of_lowered (h : c.Sound) (lock : c.lock = .lowered) : c.core.jammed = false := by
  by_contra hj
  exact (h.stuck (by simpa using hj)).lowered lock

/-- A round finds the flag up just while the service stops. -/
lemma stopping_iff (h : c.Sound) : c.stopping = true ↔ c.phase = .stopping := by
  unfold phase
  cases hj : c.core.jammed with
  | true => simp [(h.stuck hj).stopping]
  | false =>
    rw [(h.calm hj).stopping, raises]
    cases c.lock with
    | free => cases c.run <;> simp
    | _ => simp

lemma gate (h : c.Sound) :
    (if c.stopping then Phase.stopping else .running) = .stopping ↔ c.phase = .stopping := by
  rw [← h.stopping_iff]
  cases c.stopping <;> simp

lemma jammed_of_down (h : c.Sound) (hs : c.stopping = false) : c.core.jammed = false := by
  by_contra hj
  simp [(h.stuck (by simpa using hj)).stopping] at hs

/-- One that looks and does not wait is alone with its look: the background has none under way. -/
lemma own_eq_nil (h : c.Sound) (hcalm : c.core.jammed = false) (hk : k ∈ c.tasks)
    (hlooker : k.sweeps = false) (hnone : k.look = none) : c.core.own = [] := by
  refine h.crew.looks_eq_nil fun k' hk' => ?_
  cases hsweeps : k'.sweeps with
  | true => exact h.crew.sweepers k' hk' hsweeps
  | false =>
    obtain ⟨n, hired, hid⟩ := (h.calm hcalm).staffed k hk
    obtain ⟨n', hired', hid'⟩ := (h.calm hcalm).staffed k' hk'
    have hn : n = n' := by simpa using hired.symm.trans hired'
    have hsame : k = k' := h.crew.eq_of_id hk hk' (by simp [hid, hid', hlooker, hsweeps, hn])
    rw [← hsame, hnone]

/-- A look that a task waits for is under way. -/
lemma mem_looks (h : c.Sound) (hk : k ∈ c.tasks) (hlook : k.look = some l) :
    l ∈ c.core.looks ∧ l.background = true :=
  List.mem_filter.mp (h.crew.mem_looks hk hlook)

/-! ### What the turns of tasks and of others keep -/

/-- Tasks and the service itself change; nothing else does, and nobody is hired. -/
lemma retask (h : c.Sound) {core : Service} {tasks : List Task}
    (hcrew : Crew tasks c.nextTask core.own) (hsettings : core.settings = c.core.settings)
    (hjammed : core.jammed = c.core.jammed)
    (hfrom : ∀ k ∈ tasks, ∃ k₀ ∈ c.tasks, k.id = k₀.id ∧ k.sweeps = k₀.sweeps)
    (hready : ∀ k ∈ tasks, k.ready = true → c.core.settings.hasPeriod = true) :
    Sound { c with core, tasks } where
  crew := hcrew
  told := h.told
  ready k hk hk' := hsettings ▸ hready k hk hk'
  vacant := h.vacant
  hired := h.hired
  calm hj := by
    have hcalm := h.calm (hjammed ▸ hj)
    refine ⟨hcalm.running, hcalm.stopping, fun k hk => ?_, fun k hk => ?_⟩
    · obtain ⟨k₀, hk₀, hid, hsweeps⟩ := hfrom k hk
      rw [hid, hsweeps]
      exact hcalm.staffed k₀ hk₀
    · obtain ⟨k₀, hk₀, hid, -⟩ := hfrom k hk
      rw [hid]
      exact hcalm.told k₀ hk₀
  stuck hj := by
    have hstuck := h.stuck (hjammed ▸ hj)
    exact ⟨hstuck.running, hstuck.stopping, hsettings ▸ hstuck.untold, hstuck.waits, hstuck.lowered⟩

lemma recore (h : c.Sound) {core : Service} (hown : core.own = c.core.own)
    (hsettings : core.settings = c.core.settings) (hjammed : core.jammed = c.core.jammed) :
    Sound { c with core } :=
  h.retask (hown ▸ h.crew) hsettings hjammed (fun k hk => ⟨k, hk, rfl, rfl⟩) h.ready

/-- A task is over, and with it the look it has waited for. -/
lemma endTask (h : c.Sound) (hk : k ∈ c.tasks) {core : Service}
    (hown : (k.look.toList ++ core.own).Perm c.core.own)
    (hsettings : core.settings = c.core.settings) (hjammed : core.jammed = c.core.jammed) :
    Sound ({ c with core }.endTask k.id) :=
  h.retask (h.crew.endTask hk hown) hsettings hjammed
    (fun k' hk' => ⟨k', List.mem_of_mem_filter hk', rfl, rfl⟩)
    fun k' hk' => h.ready k' (List.mem_of_mem_filter hk')

/-- A task that waits for nothing is over. -/
lemma quit (h : c.Sound) (found : c.task? id = some k) (hnone : k.look = none) :
    Sound (c.endTask id) := by
  obtain ⟨hk, rfl⟩ := mem_of_task? found
  exact h.endTask hk (by simp [hnone]) rfl rfl

/-- A task that looks begins to wait, or has waited. -/
lemma setLook (h : c.Sound) (hk : k ∈ c.tasks) (hlooker : k.sweeps = false) {core : Service}
    {look : Option Look} {rest : List Look} (hrest : c.core.own.Perm (k.look.toList ++ rest))
    (hown : core.own = look.toList ++ rest) (hsettings : core.settings = c.core.settings)
    (hjammed : core.jammed = c.core.jammed) : Sound ({ c with core }.setLook k.id look) := by
  refine h.retask (hown ▸ h.crew.setLook hk hlooker look hrest) hsettings hjammed
    (fun k' hk' => ?_) fun k' hk' hready => ?_
  · obtain ⟨t, ht, rfl⟩ := List.mem_map.mp hk'
    refine ⟨t, ht, ?_⟩
    split <;> exact ⟨rfl, rfl⟩
  · obtain ⟨t, ht, rfl⟩ := List.mem_map.mp hk'
    refine h.ready t ht ?_
    split at hready <;> exact hready

lemma prepared (h : c.Sound) (told : c.failsToPrepare now = false) : Sound (c.setReady id) := by
  have hperiod : c.core.settings.hasPeriod = true := by
    simp only [failsToPrepare, Bool.not_eq_false', Bool.and_eq_true] at told
    exact told.1
  refine h.retask (h.crew.setReady id) rfl rfl (fun k hk => ?_) fun _ _ _ => hperiod
  obtain ⟨t, ht, rfl⟩ := List.mem_map.mp hk
  refine ⟨t, ht, ?_⟩
  split <;> exact ⟨rfl, rfl⟩

/-- One that sweeps waits for no look. -/
lemma looker (h : c.Sound) (hk : k ∈ c.tasks) (hlook : k.look = some l) : k.sweeps = false := by
  by_contra hsweeps
  simp [h.crew.sweepers k hk (by simpa using hsweeps)] at hlook

lemma ticked {ready : Bool} (h : c.Sound) (found : c.task? id = some ⟨id, false, none, ready⟩) :
    Sound ({ c with core := (c.core.beginLook true).2 }.setLook id
      (some (c.core.beginLook true).1)) := by
  obtain ⟨hk, -⟩ := mem_of_task? found
  exact h.setLook hk rfl (.refl _) (own_beginLook _) rfl rfl

lemma finished {sweeps ready : Bool} (h : c.Sound)
    (found : c.task? id = some ⟨id, sweeps, some l, ready⟩)
    (result : Except Backend.Error (List Observation)) (now : Nat) :
    Sound ({ c with core := (c.gated.endLook l result now).2 }.setLook id none) := by
  obtain ⟨hk, -⟩ := mem_of_task? found
  have hmem : l ∈ c.core.own := h.crew.mem_looks hk rfl
  obtain ⟨hsettings, hjammed⟩ := c.gated.endLook_keeps l result now
  exact h.setLook hk (h.looker hk rfl) (List.perm_cons_erase hmem) (own_endLook _ _ _ _) hsettings
    hjammed

lemma swept (h : c.Sound) (now : Nat) (places : Places) :
    Sound { c with core := (c.gated.sweep now places).2 } := by
  obtain ⟨hsettings, -, hjammed, -⟩ := c.gated.sweep_frame now places
  exact h.recore (own_sweep _ _ _) hsettings hjammed

/-- A stop has waited long enough for a task. -/
lemma aborted (h : c.Sound) (found : c.task? id = some k) :
    Sound ({ c with core := k.look.elim c.core c.core.closeLook }.endTask id) := by
  obtain ⟨hk, rfl⟩ := mem_of_task? found
  cases hlook : k.look with
  | none => exact h.endTask hk (by simp [hlook]) rfl rfl
  | some l =>
    refine h.endTask hk ?_ rfl rfl
    rw [hlook]
    show (l :: (c.core.closeLook l).own).Perm _
    rw [own_closeLook]
    exact (List.perm_cons_erase (h.crew.mem_looks hk hlook)).symm

lemma other {a : Action} {core : Service} (h : c.Sound) (free : isFree a = true)
    (made : c.gated.step? a = some (es, core)) : Sound { c with core } := by
  have hown : core.own = c.gated.own := own_of_isFree free made
  have hjammed : core.jammed = c.gated.jammed := jammed_of_isFree free made
  exact h.recore hown (step?_frame made).settings hjammed

/-! ### What the turns of a start keep -/

lemma started (h : c.Sound) (free : c.lock = .free) (idle : c.run = none) : c.hire.Sound where
  crew := h.crew.hire
  told id hid := by
    have hold := h.told id hid
    exact Nat.lt_trans hold (by simp [hire])
  ready k hk hready := by
    rcases List.mem_append.mp hk with hk | hk
    · exact h.ready k hk hready
    · simp only [List.mem_cons, List.not_mem_nil, or_false] at hk
      rcases hk with rfl | rfl <;> simp at hready
  vacant _ := rfl
  hired ids hired := ⟨c.nextTask, by simpa [hired?, hire] using hired.symm, by simp [hire]⟩
  calm hj := by
    have hcalm := h.calm hj
    have hnone : c.tasks = [] := hcalm.idle (by rw [hired?, free, idle])
    have hs : c.stopping = false := by rw [hcalm.stopping, raises, free]
    have hnew : ∀ id, c.nextTask ≤ id → id ∉ c.told := fun id hid ht => by
      have hold := h.told id ht
      omega
    refine ⟨?running, hs, fun k hk => ⟨c.nextTask, rfl, ?staffed⟩, fun k hk => ?told⟩
    case running =>
      show c.running = false
      rw [hcalm.running, counts, free, idle]
      rfl
    all_goals
      simp only [hire, hnone, List.nil_append, List.mem_cons, List.not_mem_nil, or_false] at hk
    case staffed => rcases hk with rfl | rfl <;> rfl
    case told =>
      show k.id ∈ c.told ↔ c.stopping = true
      rw [hs]
      rcases hk with rfl | rfl
      · simpa using hnew _ (Nat.le_refl _)
      · simpa using hnew _ (Nat.le_succ _)
  stuck hj := by
    have hstuck := h.stuck hj
    exact ⟨hstuck.running, hstuck.stopping, hstuck.untold, by simp [hire], by simp [hire]⟩

lemma launched (h : c.Sound) (lock : c.lock = .starting ids) :
    Sound { c with lock := .free, run := some ids, running := true } where
  crew := h.crew
  told := h.told
  ready := h.ready
  vacant hl := absurd rfl hl
  hired ids' hired := h.hired ids' (by rw [hired?, lock]; exact hired)
  calm hj := by
    have hcalm := h.calm hj
    refine ⟨rfl, by rw [hcalm.stopping, raises, lock]; rfl, fun k hk => ?_, hcalm.told⟩
    obtain ⟨n, hired, hid⟩ := hcalm.staffed k hk
    rw [hired?, lock] at hired
    exact ⟨n, hired, hid⟩
  stuck hj := by
    have hstuck := h.stuck hj
    exact ⟨rfl, hstuck.stopping, hstuck.untold, by simp, by simp⟩

/-! ### What the turns of a stop keep -/

lemma took (h : c.Sound) (free : c.lock = .free) (busy : c.run = some ids) :
    Sound { c with run := none, lock := .taken ids } where
  crew := h.crew
  told := h.told
  ready := h.ready
  vacant _ := rfl
  hired ids' hired := h.hired ids' (by rw [hired?, free, busy]; exact hired)
  calm hj := by
    have hcalm := h.calm hj
    refine ⟨?_, by rw [hcalm.stopping, raises, free]; rfl, fun k hk => ?_, hcalm.told⟩
    · rw [hcalm.running, counts, free, busy]
      rfl
    · obtain ⟨n, hired, hid⟩ := hcalm.staffed k hk
      rw [hired?, free, busy] at hired
      exact ⟨n, hired, hid⟩
  stuck hj := by
    have hstuck := h.stuck hj
    exact ⟨hstuck.running, hstuck.stopping, hstuck.untold, by simp, by simp⟩

lemma raised (h : c.Sound) (lock : c.lock = .taken ids) : (c.raise ids).Sound where
  crew := h.crew
  told id hid := by
    rcases List.mem_append.mp hid with hid | hid
    · exact h.told id hid
    · obtain ⟨n, rfl, hold⟩ := h.hired ids (by rw [hired?, lock])
      simp only [List.mem_cons, List.not_mem_nil, or_false] at hid
      show id < c.nextTask
      omega
  ready := h.ready
  vacant _ := h.vacant (by simp [lock])
  hired ids' hired := h.hired ids' (by rw [hired?, lock]; exact hired)
  calm hj := by
    have hcalm := h.calm hj
    have hstaffed : ∀ k ∈ c.tasks,
        ∃ n, some ids = some [n, n + 1] ∧ k.id = if k.sweeps then n + 1 else n := fun k hk => by
      obtain ⟨n, hired, hid⟩ := hcalm.staffed k hk
      rw [hired?, lock] at hired
      exact ⟨n, hired, hid⟩
    refine ⟨by rw [raise, hcalm.running, counts, lock]; rfl, rfl, hstaffed, fun k hk => ?_⟩
    obtain ⟨n, hids, hid⟩ := hstaffed k hk
    have hmem : k.id ∈ ids := by
      rw [hid, Option.some.inj hids]
      cases k.sweeps <;> simp
    simp [raise, hmem]
  stuck hj := by
    have hstuck := h.stuck hj
    exact ⟨hstuck.running, rfl, hstuck.untold, by simp [raise], by simp [raise]⟩

/-- After a stop has failed no time comes at which one does not. -/
lemma untold (h : c.Sound) (hj : c.core.jammed = true) (later : c.now ≤ now) :
    c.core.settings.hasDeadline now = false := by
  have huntold := (h.stuck hj).untold
  simp only [Settings.hasDeadline, Time.Clock.tells, decide_eq_false_iff_not] at huntold ⊢
  omega

lemma waited (h : c.Sound) (lock : c.lock = .raised ids) (later : c.now ≤ now)
    (told : c.core.settings.hasDeadline now = true) :
    Sound { c with lock := .waiting ids, now } where
  crew := h.crew
  told := h.told
  ready := h.ready
  vacant _ := h.vacant (by simp [lock])
  hired ids' hired := h.hired ids' (by rw [hired?, lock]; exact hired)
  calm hj := by
    have hcalm := h.calm hj
    refine ⟨by rw [hcalm.running, counts, lock]; rfl, by rw [hcalm.stopping, raises, lock]; rfl,
      fun k hk => ?_, hcalm.told⟩
    obtain ⟨n, hired, hid⟩ := hcalm.staffed k hk
    rw [hired?, lock] at hired
    exact ⟨n, hired, hid⟩
  stuck hj := by simp [h.untold hj later] at told

lemma jammed (h : c.Sound) (lock : c.lock = .raised ids)
    (untold : c.core.settings.hasDeadline now = false) : (c.jam now).Sound where
  crew := h.crew
  told := h.told
  ready := h.ready
  vacant hl := absurd rfl hl
  hired ids' hired := by
    have hrun : c.run = none := h.vacant (by simp [lock])
    simp [hired?, jam, hrun] at hired
  calm hj := by simp [jam, Service.jam] at hj
  stuck _ := by
    have hflags : c.running = true ∧ c.stopping = true := by
      cases hj : c.core.jammed with
      | true => exact ⟨(h.stuck hj).running, (h.stuck hj).stopping⟩
      | false =>
        rw [(h.calm hj).running, (h.calm hj).stopping, counts, raises, lock]
        exact ⟨rfl, rfl⟩
    exact ⟨hflags.1, hflags.2, untold, by simp [jam], by simp [jam]⟩

lemma lowered (h : c.Sound) (lock : c.lock = .waiting ids) (gone : ∀ k ∈ c.tasks, k.id ∉ ids) :
    Sound { c with lock := .lowered, stopping := false } where
  crew := h.crew
  told := h.told
  ready := h.ready
  vacant _ := h.vacant (by simp [lock])
  hired := by simp [hired?]
  calm hj := by
    have hcalm := h.calm hj
    have hnone : c.tasks = [] := hcalm.tasks_eq_nil (by rw [hired?, lock]) gone
    exact ⟨by rw [hcalm.running, counts, lock]; rfl, rfl, by simp [hnone], by simp [hnone]⟩
  stuck hj := absurd (h.jammed_of_waiting lock) (by simpa using hj)

lemma left (h : c.Sound) (lock : c.lock = .lowered) :
    Sound { c with lock := .free, running := false } where
  crew := h.crew
  told := h.told
  ready := h.ready
  vacant hl := absurd rfl hl
  hired := by simp [hired?, h.vacant (show c.lock ≠ .free by simp [lock])]
  calm hj := by
    have hcalm := h.calm hj
    have hrun : c.run = none := h.vacant (by simp [lock])
    have hnone : c.tasks = [] := hcalm.idle (by rw [hired?, lock])
    exact ⟨by simp [counts, hrun], by rw [hcalm.stopping, raises, lock]; rfl, by simp [hnone],
      by simp [hnone]⟩
  stuck hj := absurd (h.jammed_of_lowered lock) (by simpa using hj)

/-- **What is always true still is after a step.** -/
theorem step (h : c.Sound) (made : Steps c turn es c') : c'.Sound := by
  cases made with
  | started free idle => exact h.started free idle
  | refused free busy => exact h
  | launched lock => exact h.launched lock
  | spared free idle => exact h
  | took free busy => exact h.took free busy
  | raised lock => exact h.raised lock
  | waited lock later told => exact h.waited lock later told
  | jammed lock later untold => exact h.jammed lock untold
  | lowered lock gone => exact h.lowered lock gone
  | left lock => exact h.left lock
  | prepared found told => exact h.prepared told
  | unprepared found untold =>
    obtain ⟨hk, -⟩ := mem_of_task? found
    exact h.quit found (h.crew.sweepers _ hk rfl)
  | skipped found told => exact h
  | missed found untold => exact h.quit found rfl
  | ticked found untold => exact h.ticked found
  | finished found quiet => exact h.finished found _ _
  | swept found quiet told => exact h.swept _ _
  | unswept found quiet untold =>
    obtain ⟨hk, -⟩ := mem_of_task? found
    exact h.quit found (h.crew.sweepers _ hk rfl)
  | ended found told => exact h.quit found rfl
  | aborted lock found mem => exact h.aborted found
  | other free made => exact h.other free made

end Sound

end NodeWatch.Service.Controls
