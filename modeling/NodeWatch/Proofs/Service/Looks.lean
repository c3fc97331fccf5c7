import NodeWatch.Proofs.Service.Step

/-!
Which looks are under way.

Looks are numbered, and a look that is over does not come back. Unless a stop has failed, the
background has at most one under way, and none while the service is stopped: a stop ends only when
that look has ended or been abandoned.
-/

namespace NodeWatch.Service

/-- How many looks of the background are under way. -/
def busy (s : Service) : Nat := s.looks.countP (·.background)

/-- How many looks of the background begin with an action. -/
def Action.begins : Action → Nat
  | tick => 1
  | _ => 0

/-- How many looks of the background are over with an action. -/
def Action.ends : Action → Nat
  | finish l _ _ | abandon l => if l.background = true then 1 else 0
  | _ => 0

def begun : List Moment → Nat
  | [] => 0
  | m :: past => m.action.begins + begun past

def ended : List Moment → Nat
  | [] => 0
  | m :: past => m.action.ends + ended past

@[simp] lemma begun_cons (m : Moment) (past : List Moment) :
    begun (m :: past) = m.action.begins + begun past := rfl

@[simp] lemma ended_cons (m : Moment) (past : List Moment) :
    ended (m :: past) = m.action.ends + ended past := rfl

lemma ended_append (later past : List Moment) :
    ended (later ++ past) = ended later + ended past := by
  induction later with
  | nil => exact (Nat.zero_add _).symm
  | cons m later ih => rw [List.cons_append, ended_cons, ended_cons, ih, Nat.add_assoc]

variable {s₀ s s' : Service} {a : Action} {es : List Event} {past : List Moment} {l : Look}

/-! ### What one step does -/

lemma isBusy_eq_false_iff : s.isBusy = false ↔ s.busy = 0 := by
  simp [isBusy, busy, List.countP_eq_zero]

lemma busy_pos_of_mem (hl : l ∈ s.looks) (hb : l.background = true) : 0 < s.busy :=
  List.countP_pos_iff.mpr ⟨l, hl, hb⟩

/-- The background begins a look only while the service runs and it has none under way, or in
vain. -/
lemma step?_tick (made : s.step? .tick = some (es, s')) :
    s.phase = .running ∧ s.busy = 0 ∨ s.jammed = true := by
  cases steps_of_step? made with
  | tick free => rwa [isBusy_eq_false_iff] at free

/-- A stop waits for the look of the background. -/
lemma step?_stopped (made : s.step? .stopped = some (es, s')) :
    s.phase = .stopping ∧ s.jammed = false ∧ s.busy = 0 := by
  cases steps_of_step? made with
  | stopped stops calm idle => exact ⟨stops, calm, isBusy_eq_false_iff.mp idle⟩

/-- Only while a stop is under way is a look abandoned, and only one of the background. -/
lemma step?_abandon (made : s.step? (.abandon l) = some (es, s')) :
    s.phase = .stopping ∧ s.jammed = false ∧ l ∈ s.looks ∧ l.background = true := by
  cases steps_of_step? made with
  | abandon stops calm under background => exact ⟨stops, calm, under, background⟩

lemma countP_erase_add (hl : l ∈ s.looks) :
    (s.looks.erase l).countP (·.background) + (if l.background = true then 1 else 0) = s.busy := by
  rw [busy, List.Perm.countP_eq _ (List.perm_cons_erase hl), List.countP_cons]

/-- What begins and is not over is under way. -/
lemma step?_busy (made : s.step? a = some (es, s')) : s'.busy + a.ends = s.busy + a.begins := by
  have hlooks := (step?_frame made).looks
  rw [busy, hlooks]
  cases a with
  | tick => simp [looksAfter, Action.ends, Action.begins, busy]
  | ask => simp [looksAfter, Action.ends, Action.begins, busy]
  | finish l result now => exact countP_erase_add (step?_finish made).1
  | abandon l => exact countP_erase_add (step?_abandon made).2.2.1
  | _ => rfl

/-- What is always true of the looks under way. -/
structure Looking (s : Service) : Prop where
  numbered : ∀ l ∈ s.looks, l.id < s.nextLook
  stopping : s.jammed = true → s.phase = .stopping
  single : s.jammed = false → s.busy ≤ 1
  idle : s.phase = .stopped → s.busy = 0

lemma looking_of_make {c : Config.Discovery} {backend : String} {pins : Bool} {m : Metrics}
    {clock : Time.Clock} (h : make c backend pins m clock = .ok s₀) : s₀.Looking := by
  obtain ⟨-, -, -, hcalm, hnone⟩ := new_of_make h
  exact ⟨by simp [hnone], by simp [hcalm], by simp [busy, hnone], by simp [busy, hnone]⟩

lemma nextLook_le (made : s.step? a = some (es, s')) : s.nextLook ≤ s'.nextLook := by
  rw [(step?_frame made).nextLook]
  cases a <;> simp [nextLookAfter]

/-- A look is under way after a step if it was before or has just begun. -/
lemma mem_looks (made : s.step? a = some (es, s')) (hl : l ∈ s'.looks) :
    l ∈ s.looks ∨ l.id = s.nextLook ∧ s'.nextLook = s.nextLook + 1 := by
  have hframe := step?_frame made
  rw [hframe.looks] at hl
  cases a with
  | tick | ask =>
    rcases List.mem_cons.mp hl with rfl | hl
    · exact .inr ⟨rfl, hframe.nextLook⟩
    · exact .inl hl
  | finish k result now | abandon k => exact .inl (List.mem_of_mem_erase hl)
  | _ => exact .inl hl

/-- A stop that has failed is never over. -/
lemma Looking.stopping_step (h : s.Looking) (made : s.step? a = some (es, s'))
    (hj : s'.jammed = true) : s'.phase = .stopping := by
  have hframe := step?_frame made
  rw [hframe.jammed] at hj
  rw [hframe.phase]
  cases a with
  | jam now =>
    cases steps_of_step? made with
    | jam stops => exact stops
  | stopped => exact absurd hj (by simp [jammedAfter, (step?_stopped made).2.1])
  | start => exact if_pos (h.stopping hj)
  | stop =>
    rw [phaseAfter, if_neg (by simp [h.stopping hj])]
    exact h.stopping hj
  | _ => exact h.stopping hj

/-- While the service runs, no stop has failed. -/
lemma Looking.calm (h : s.Looking) (hp : s.phase = .running) : s.jammed = false := by
  by_contra hj
  exact absurd (hp.symm.trans (h.stopping (by simpa using hj))) (by simp)

/-- Before any stop has failed, none had failed. -/
lemma jammed_of_step (made : s.step? a = some (es, s')) (hj : s'.jammed = false) :
    s.jammed = false := by
  rw [(step?_frame made).jammed] at hj
  cases a with
  | jam now => simp [jammedAfter] at hj
  | _ => exact hj

lemma Looking.step (h : s.Looking) (made : s.step? a = some (es, s')) : s'.Looking := by
  have hbusy := step?_busy made
  refine ⟨fun l hl => ?numbered, h.stopping_step made, fun hj => ?single, fun hp => ?idle⟩
  case numbered =>
    rcases mem_looks made hl with hl | ⟨hid, hnext⟩
    · exact Nat.lt_of_lt_of_le (h.numbered l hl) (nextLook_le made)
    · omega
  case single =>
    have hcalm := jammed_of_step made hj
    have hsingle := h.single hcalm
    cases a with
    | tick =>
      obtain ⟨-, hidle⟩ := (step?_tick made).resolve_right (by simp [hcalm])
      simp only [Action.ends, Action.begins] at hbusy
      omega
    | _ =>
      simp only [Action.begins] at hbusy
      omega
  case idle =>
    have hcalm : s.jammed = false := jammed_of_step made <| by
      by_contra hj
      exact absurd (hp.symm.trans (h.stopping_step made (by simpa using hj))) (by simp)
    rw [(step?_frame made).phase] at hp
    cases a with
    | tick =>
      obtain ⟨hrunning, -⟩ := (step?_tick made).resolve_right (by simp [hcalm])
      exact absurd (hrunning.symm.trans hp) (by simp)
    | stopped =>
      have hidle := (step?_stopped made).2.2
      simp only [Action.ends, Action.begins] at hbusy
      omega
    | start =>
      rw [phaseAfter] at hp
      split at hp <;> simp at hp
    | stop =>
      have hstopped : s.phase = .stopped := by
        by_cases hr : s.phase = .running <;> simp_all [phaseAfter]
      have hidle := h.idle hstopped
      simp only [Action.ends, Action.begins] at hbusy
      omega
    | _ =>
      have hidle := h.idle hp
      simp only [Action.begins] at hbusy
      omega

lemma Run.looking (h : Run s₀ past s) (h₀ : s₀.Looking) : s.Looking := by
  induction h with
  | start => exact h₀
  | step run made ih => exact ih.step made

lemma Run.nextLook_le (h : Run s₀ past s) : s₀.nextLook ≤ s.nextLook := by
  induction h with
  | start => exact Nat.le_refl _
  | step run made ih => exact Nat.le_trans ih (Service.nextLook_le made)

/-- **What has begun and is not over is under way.** -/
lemma Run.busy_add_ended (h : Run s₀ past s) : s.busy + ended past = s₀.busy + begun past := by
  induction h with
  | start => rfl
  | step run made ih =>
    have hstep := step?_busy made
    simp only [begun_cons, ended_cons]
    omega

end NodeWatch.Service
