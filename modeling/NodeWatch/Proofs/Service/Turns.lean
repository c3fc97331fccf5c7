import NodeWatch.Proofs.Service.Phases

/-!
What a step of the controls does.

There is one form for each way in which a step can be made. A form has what the step needs and what
it makes of the controls, and every step has one of them.
-/

namespace NodeWatch.Service.Controls

/-- A start begins its tasks. -/
def hire (c : Controls) : Controls :=
  { c with
    lock := .starting [c.nextTask, c.nextTask + 1]
    run := none
    tasks := c.tasks ++ [{ id := c.nextTask, sweeps := false },
      { id := c.nextTask + 1, sweeps := true }]
    nextTask := c.nextTask + 2 }

/-- A stop raises its flag and tells the tasks to end. -/
def raise (c : Controls) (ids : List Nat) : Controls :=
  { c with lock := .raised ids, stopping := true, told := c.told ++ ids }

/-- A stop fails. -/
def jam (c : Controls) (now : Nat) : Controls :=
  { c with lock := .free, core := c.core.jam, now }

/-- The steps there are, each with what it needs and what it makes of the controls. -/
inductive Steps (c : Controls) : Turn → List Event → Controls → Prop where
  | started (free : c.lock = .free) (idle : c.run = none) : Steps c .start [] c.hire
  | refused {ids : List Nat} (free : c.lock = .free) (busy : c.run = some ids) :
    Steps c .start [] c
  | launched {ids : List Nat} {logged : Bool} (lock : c.lock = .starting ids) :
    Steps c (.launch logged) [] { c with lock := .free, run := some ids, running := true }
  | spared (free : c.lock = .free) (idle : c.run = none) : Steps c .stop [] c
  | took {ids : List Nat} (free : c.lock = .free) (busy : c.run = some ids) :
    Steps c .stop [] { c with run := none, lock := .taken ids }
  | raised {ids : List Nat} (lock : c.lock = .taken ids) : Steps c .raise [] (c.raise ids)
  | waited {ids : List Nat} {now : Nat} (lock : c.lock = .raised ids) (later : c.now ≤ now)
    (told : c.core.settings.hasDeadline now = true) :
    Steps c (.wait now) [] { c with lock := .waiting ids, now }
  | jammed {ids : List Nat} {now : Nat} (lock : c.lock = .raised ids) (later : c.now ≤ now)
    (untold : c.core.settings.hasDeadline now = false) : Steps c (.wait now) [] (c.jam now)
  | lowered {ids : List Nat} (lock : c.lock = .waiting ids) (gone : ∀ k ∈ c.tasks, k.id ∉ ids) :
    Steps c .lower [] { c with lock := .lowered, stopping := false }
  | left (lock : c.lock = .lowered) : Steps c .leave [] { c with lock := .free, running := false }
  | prepared {id now : Nat} {look : Option Look} (found : c.task? id = some ⟨id, true, look, false⟩)
    (told : c.failsToPrepare now = false) : Steps c (.prepare id now) [] (c.setReady id)
  | unprepared {id now : Nat} {look : Option Look}
    (found : c.task? id = some ⟨id, true, look, false⟩) (untold : c.failsToPrepare now = true) :
    Steps c (.prepare id now) [] (c.endTask id)
  | skipped {id now : Nat} {sweeps ready : Bool}
    (found : c.task? id = some ⟨id, sweeps, none, ready⟩)
    (told : c.failsToSkip sweeps now = false) : Steps c (.skip id now) [] c
  | missed {id now : Nat} {sweeps ready : Bool}
    (found : c.task? id = some ⟨id, sweeps, none, ready⟩)
    (untold : c.failsToSkip sweeps now = true) : Steps c (.skip id now) [] (c.endTask id)
  | ticked {id : Nat} {ready : Bool} (found : c.task? id = some ⟨id, false, none, ready⟩)
    (untold : id ∉ c.told) :
    Steps c (.tick id) []
      ({ c with core := (c.core.beginLook true).2 }.setLook id (some (c.core.beginLook true).1))
  | finished {id now : Nat} {result : Except Backend.Error (List Observation)}
    {sweeps ready : Bool} {l : Look} (found : c.task? id = some ⟨id, sweeps, some l, ready⟩)
    (quiet : c.core.outbox = []) :
    Steps c (.finish id result now) (c.gated.endLook l result now).1
      ({ c with core := (c.gated.endLook l result now).2 }.setLook id none)
  | swept {id now : Nat} {places : Places} {look : Option Look}
    (found : c.task? id = some ⟨id, true, look, true⟩) (quiet : c.core.outbox = [])
    (told : c.gated.canSweep = true) :
    Steps c (.sweep id now places) (c.gated.sweep now places).1
      { c with core := (c.gated.sweep now places).2 }
  | unswept {id now : Nat} {places : Places} {look : Option Look}
    (found : c.task? id = some ⟨id, true, look, true⟩) (quiet : c.core.outbox = [])
    (untold : c.gated.canSweep = false) : Steps c (.sweep id now places) [] (c.endTask id)
  | ended {id : Nat} {sweeps ready : Bool} (found : c.task? id = some ⟨id, sweeps, none, ready⟩)
    (told : id ∈ c.told) : Steps c (.quit id) [] (c.endTask id)
  | aborted {id : Nat} {ids : List Nat} {k : Task} (lock : c.lock = .waiting ids)
    (found : c.task? id = some k) (mem : id ∈ ids) :
    Steps c (.abort id) [] ({ c with core := k.look.elim c.core c.core.closeLook }.endTask id)
  | other {a : Action} {es : List Event} {core : Service} (free : isFree a = true)
    (made : c.gated.step? a = some (es, core)) : Steps c (.other a) es { c with core }

variable {c c' : Controls} {turn : Turn} {es : List Event} {id now : Nat} {k : Task}

lemma mem_of_task? (h : c.task? id = some k) : k ∈ c.tasks ∧ k.id = id :=
  ⟨List.mem_of_find?_eq_some h, by simpa using List.find?_some h⟩

/-! ### Calls -/

lemma steps_start (made : c.step? .start = some (es, c')) : Steps c .start es c' := by
  simp only [step?, start, Option.ite_none_right_eq_some] at made
  obtain ⟨hfree, made⟩ := made
  cases hrun : c.run with
  | none =>
    simp only [hrun, Option.some.injEq, Prod.mk.injEq] at made
    obtain ⟨rfl, rfl⟩ := made
    exact .started hfree hrun
  | some ids =>
    simp only [hrun, Option.some.injEq, Prod.mk.injEq] at made
    obtain ⟨rfl, rfl⟩ := made
    exact .refused hfree hrun

lemma steps_launch {logged : Bool} (made : c.step? (.launch logged) = some (es, c')) :
    Steps c (.launch logged) es c' := by
  simp only [step?] at made
  split at made
  next ids hlock =>
    obtain ⟨rfl, rfl⟩ := Prod.mk.inj (Option.some.inj made)
    exact .launched hlock
  next => simp at made

lemma steps_stop (made : c.step? .stop = some (es, c')) : Steps c .stop es c' := by
  simp only [step?, Option.ite_none_right_eq_some] at made
  obtain ⟨hfree, made⟩ := made
  cases hrun : c.run with
  | none =>
    simp only [hrun, Option.some.injEq, Prod.mk.injEq] at made
    obtain ⟨rfl, rfl⟩ := made
    exact .spared hfree hrun
  | some ids =>
    simp only [hrun, Option.some.injEq, Prod.mk.injEq] at made
    obtain ⟨rfl, rfl⟩ := made
    exact .took hfree hrun

lemma steps_raise (made : c.step? .raise = some (es, c')) : Steps c .raise es c' := by
  simp only [step?] at made
  split at made
  next ids hlock =>
    obtain ⟨rfl, rfl⟩ := Prod.mk.inj (Option.some.inj made)
    exact .raised hlock
  next => simp at made

lemma steps_wait (made : c.step? (.wait now) = some (es, c')) : Steps c (.wait now) es c' := by
  simp only [step?] at made
  split at made
  next ids hlock =>
    simp only [Option.ite_none_right_eq_some, failsToWait, Bool.not_eq_true'] at made
    obtain ⟨hlater, made⟩ := made
    split at made
    next huntold =>
      obtain ⟨rfl, rfl⟩ := Prod.mk.inj (Option.some.inj made)
      exact .jammed hlock hlater huntold
    next htold =>
      obtain ⟨rfl, rfl⟩ := Prod.mk.inj (Option.some.inj made)
      exact .waited hlock hlater (by simpa using htold)
  next => simp at made

lemma steps_lower (made : c.step? .lower = some (es, c')) : Steps c .lower es c' := by
  simp only [step?] at made
  split at made
  next ids hlock =>
    simp only [Option.ite_none_right_eq_some, List.all_eq_true, decide_eq_true_eq,
      Option.some.injEq, Prod.mk.injEq] at made
    obtain ⟨hgone, rfl, rfl⟩ := made
    exact .lowered hlock hgone
  next => simp at made

lemma steps_leave (made : c.step? .leave = some (es, c')) : Steps c .leave es c' := by
  simp only [step?, Option.ite_none_right_eq_some, Option.some.injEq, Prod.mk.injEq] at made
  obtain ⟨hlock, rfl, rfl⟩ := made
  exact .left hlock

lemma steps_abort (made : c.step? (.abort id) = some (es, c')) : Steps c (.abort id) es c' := by
  simp only [step?] at made
  split at made
  next ids k hlock hfound =>
    simp only [Option.ite_none_right_eq_some, Option.some.injEq, Prod.mk.injEq] at made
    obtain ⟨hmem, rfl, rfl⟩ := made
    exact .aborted hlock hfound hmem
  next => simp at made

/-! ### Tasks -/

lemma steps_prepare (made : c.step? (.prepare id now) = some (es, c')) :
    Steps c (.prepare id now) es c' := by
  simp only [step?] at made
  split at made
  next j look hfound =>
    obtain ⟨-, rfl⟩ := mem_of_task? hfound
    obtain ⟨rfl, rfl⟩ := Prod.mk.inj (Option.some.inj made)
    split
    next huntold => exact .unprepared hfound huntold
    next htold => exact .prepared hfound (by simpa using htold)
  next => simp at made

lemma steps_skip (made : c.step? (.skip id now) = some (es, c')) :
    Steps c (.skip id now) es c' := by
  simp only [step?] at made
  split at made
  next j sweeps ready hfound =>
    obtain ⟨-, rfl⟩ := mem_of_task? hfound
    obtain ⟨rfl, rfl⟩ := Prod.mk.inj (Option.some.inj made)
    split
    next huntold => exact .missed hfound huntold
    next htold => exact .skipped hfound (by simpa using htold)
  next => simp at made

lemma steps_tick (made : c.step? (.tick id) = some (es, c')) : Steps c (.tick id) es c' := by
  simp only [step?] at made
  split at made
  next j ready hfound =>
    simp only [Option.ite_none_left_eq_some, Option.some.injEq, Prod.mk.injEq] at made
    obtain ⟨huntold, rfl, rfl⟩ := made
    obtain ⟨-, rfl⟩ := mem_of_task? hfound
    exact .ticked hfound huntold
  next => simp at made

lemma steps_finish {result : Except Backend.Error (List Observation)}
    (made : c.step? (.finish id result now) = some (es, c')) :
    Steps c (.finish id result now) es c' := by
  simp only [step?] at made
  split at made
  next j sweeps l ready hfound =>
    simp only [Option.ite_none_right_eq_some, Option.some.injEq, Prod.mk.injEq] at made
    obtain ⟨hquiet, rfl, rfl⟩ := made
    obtain ⟨-, rfl⟩ := mem_of_task? hfound
    exact .finished hfound hquiet
  next => simp at made

lemma steps_sweep {places : Places} (made : c.step? (.sweep id now places) = some (es, c')) :
    Steps c (.sweep id now places) es c' := by
  simp only [step?] at made
  split at made
  next j look hfound =>
    simp only [Option.ite_none_right_eq_some] at made
    obtain ⟨hquiet, made⟩ := made
    obtain ⟨-, rfl⟩ := mem_of_task? hfound
    split at made
    next htold =>
      obtain ⟨rfl, rfl⟩ := Prod.mk.inj (Option.some.inj made)
      exact .swept hfound hquiet htold
    next huntold =>
      obtain ⟨rfl, rfl⟩ := Prod.mk.inj (Option.some.inj made)
      exact .unswept hfound hquiet (by simpa using huntold)
  next => simp at made

lemma steps_quit (made : c.step? (.quit id) = some (es, c')) : Steps c (.quit id) es c' := by
  simp only [step?] at made
  split at made
  next j sweeps ready hfound =>
    simp only [Option.ite_none_right_eq_some, Option.some.injEq, Prod.mk.injEq] at made
    obtain ⟨htold, rfl, rfl⟩ := made
    obtain ⟨-, rfl⟩ := mem_of_task? hfound
    exact .ended hfound htold
  next => simp at made

/-! ### Others -/

lemma steps_other {a : Action} (made : c.step? (.other a) = some (es, c')) :
    Steps c (.other a) es c' := by
  simp only [step?, Option.ite_none_right_eq_some, Option.map_eq_some_iff, Prod.exists,
    Prod.mk.injEq] at made
  obtain ⟨hfree, es', core, hmade, rfl, rfl⟩ := made
  exact .other hfree hmade

/-- **What a step does.** -/
theorem steps_of_step? (made : c.step? turn = some (es, c')) : Steps c turn es c' := by
  cases turn with
  | start => exact steps_start made
  | launch logged => exact steps_launch made
  | stop => exact steps_stop made
  | raise => exact steps_raise made
  | wait now => exact steps_wait made
  | lower => exact steps_lower made
  | leave => exact steps_leave made
  | prepare id now => exact steps_prepare made
  | skip id now => exact steps_skip made
  | tick id => exact steps_tick made
  | finish id result now => exact steps_finish made
  | sweep id now places => exact steps_sweep made
  | quit id => exact steps_quit made
  | abort id => exact steps_abort made
  | other a => exact steps_other made

end NodeWatch.Service.Controls
