import NodeWatch.Proofs.Service.Step
import NodeWatch.Service.Paced

/-!
Steps and runs of a service in smaller steps.

Whatever a service does in one step it can do in smaller ones: a look that ends is over, its round
changes the roster, and the round is counted before anything else happens.
-/

namespace NodeWatch.Service

section

variable {s s' : Service} {a : Action} {es : List Event}

lemma metrics_of_isWhole (ha : Paced.isWhole a = true) (made : s.step? a = some (es, s')) :
    s'.metrics = s.metrics := by
  cases steps_of_step? made with
  | stop free =>
    unfold beginStop
    split <;> rfl
  | finish | abandon | sweepTick | sweep | tell => simp [Paced.isWhole] at ha
  | _ => rfl

/-- Neither rounds nor events are involved. -/
lemma rest_of_isWhole (ha : Paced.isWhole a = true) (made : s.step? a = some (es, s')) :
    es = [] ∧ s'.roster = s.roster ∧ s'.outbox = s.outbox := by
  obtain ⟨hround, -, -⟩ | ⟨-, hes, hroster, hout, -⟩ := step?_cases made
  · cases a <;> simp [Paced.isWhole, Action.isRound] at ha hround
  · have htold : (⟨s, a, es⟩ : Service.Moment).told = [] := by
      cases a <;> first | rfl | simp [Paced.isWhole] at ha
    rw [htold, List.nil_append] at hout
    exact ⟨hes, hroster, hout.symm⟩

end

/-- A service no part of whose work is half done. -/
def paced (s : Service) : Paced := { core := s }

namespace Paced

/-- A step of a run: the state before it, and the events of the round if it begins one. -/
structure Moment where
  before : Paced
  pace : Pace
  events : List Event

/-- The moments from one state to another, the last first. -/
inductive Run (p₀ : Paced) : List Moment → Paced → Prop where
  | start : Run p₀ [] p₀
  | step {past : List Moment} {p p' : Paced} {a : Pace} {es : List Event}
    (run : Run p₀ past p) (made : p.step? a = some (es, p')) : Run p₀ (⟨p, a, es⟩ :: past) p'

variable {p₀ p p' : Paced} {past : List Moment} {a : Pace} {es : List Event}

/-! ### What a step is -/

/-- The steps with what each needs and what it makes. -/
inductive Steps (p : Paced) : Pace → List Event → Paced → Prop where
  | endLook {l : Look} {result : Except Backend.Error (List Observation)}
    (under : l ∈ p.core.looks) (lasts : p.awaits l = false) :
    Steps p (.endLook l result) [] (p.endLook l result)
  | commit {l : Look} {os : List Observation} (now : Nat) (waits : (l, os) ∈ p.waiting)
    (idle : p.Idle) :
    Steps p (.commit l now) ((p.closeLook l).commit os now).1 ((p.closeLook l).commit os now).2
  | sweep (now : Nat) (places : Places) (idle : p.Idle) (told : p.core.canSweep = true) :
    Steps p (.sweep now places) (p.sweep now places).1 (p.sweep now places).2
  | count {name : String} {n : Nat} (uncounted : p.uncounted = some (name, n)) :
    Steps p .count [] { p.counting fun m => (m.cycle name).setMembers n with uncounted := none }
  | tell {e : Event} {rest : List Event} (settled : p.uncounted = none)
    (outbox : p.core.outbox = e :: rest) :
    Steps p .tell [] { p with core := { p.core with outbox := rest }.tell e }
  | abandon {l : Look} (stops : p.core.phase = .stopping) (calm : p.core.jammed = false)
    (under : l ∈ p.core.looks) (background : l.background = true) :
    Steps p (.abandon l) [] (p.abandon l)
  | elsewhere {f : Metrics.Family} {values : List String} (other : ¬ isOwn f = true) :
    Steps p (.elsewhere f values) [] (p.counting fun m => m.count f values)
  | whole {a : Action} {core : Service} (here : isWhole a = true)
    (made : p.core.step? a = some ([], core)) : Steps p (.whole a) [] { p with core }

lemma steps_of_step? (made : p.step? a = some (es, p')) : Steps p a es p' := by
  cases a with
  | endLook l result =>
    simp only [step?, Option.ite_none_right_eq_some, Option.some.injEq, Prod.mk.injEq] at made
    obtain ⟨⟨hl, hlasts⟩, rfl, rfl⟩ := made
    exact .endLook hl hlasts
  | commit l now =>
    simp only [step?] at made
    split at made
    next => cases made
    next w os hw =>
      obtain ⟨hidle, hp⟩ := Option.ite_none_right_eq_some.mp made
      obtain rfl : w = l := by simpa using List.find?_some hw
      have hstep := Steps.commit now (List.mem_of_find?_eq_some hw) hidle
      rw [Option.some.inj hp] at hstep
      exact hstep
  | sweep now places =>
    obtain ⟨⟨hidle, hcan⟩, hp⟩ := Option.ite_none_right_eq_some.mp made
    have hstep := Steps.sweep now places hidle hcan
    rw [Option.some.inj hp] at hstep
    exact hstep
  | count =>
    simp only [step?, Option.ite_none_left_eq_some, Option.some.injEq, Prod.mk.injEq] at made
    obtain ⟨hu, rfl, rfl⟩ := made
    obtain ⟨⟨name, n⟩, hu⟩ := Option.ne_none_iff_exists'.mp hu
    rw [Paced.count, hu]
    exact .count hu
  | tell =>
    simp only [step?, Option.ite_none_right_eq_some, Option.some.injEq, Prod.mk.injEq] at made
    obtain ⟨⟨hu, hout⟩, rfl, rfl⟩ := made
    obtain ⟨e, rest, hout⟩ := List.exists_cons_of_ne_nil hout
    rw [tellNext, hout]
    exact .tell hu hout
  | abandon l =>
    simp only [step?, Option.ite_none_right_eq_some, Option.some.injEq, Prod.mk.injEq] at made
    obtain ⟨⟨hstop, hcalm, hl, hb⟩, rfl, rfl⟩ := made
    exact .abandon hstop hcalm hl hb
  | elsewhere f values =>
    simp only [step?, Option.ite_none_left_eq_some, Option.some.injEq, Prod.mk.injEq] at made
    obtain ⟨hf, rfl, rfl⟩ := made
    exact .elsewhere hf
  | whole a =>
    obtain ⟨ha, hp⟩ := Option.ite_none_right_eq_some.mp made
    obtain ⟨⟨fs, core⟩, hcore, hp⟩ := Option.map_eq_some_iff.mp hp
    obtain ⟨rfl, rfl⟩ := Prod.mk.inj hp
    obtain ⟨rfl, -, -⟩ := rest_of_isWhole ha hcore
    exact .whole ha hcore

/-! ### Steps of a service in smaller ones -/

/-- There is a run to a state with these events. -/
def Reaches (p₀ : Paced) (es : List Event) (p : Paced) : Prop :=
  ∃ past, Run p₀ past p ∧ history Moment.events past = es

lemma Reaches.step {x : List Event × Paced} (h : Reaches p₀ es p) (made : p.step? a = some x) :
    Reaches p₀ (es ++ x.1) x.2 := by
  obtain ⟨past, hrun, hes⟩ := h
  exact ⟨⟨p, a, x.1⟩ :: past, hrun.step made, by rw [history_cons, hes]⟩

lemma Reaches.count (h : Reaches p₀ es p) : Reaches p₀ es p.count := by
  by_cases hu : p.uncounted = none
  · rw [Paced.count, hu]
    exact h
  · have made : p.step? .count = some ([], p.count) := if_neg hu
    simpa using h.step made

/-- A round that is counted at once is a round of the service. -/
lemma count_commit (s : Service) (os : List Observation) (now : Nat) :
    (s.paced.commit os now).1 = (s.commit os now).1 ∧
      (s.paced.commit os now).2.count = (s.commit os now).2.paced := by
  unfold commit Service.commit
  by_cases hp : s.phase = .stopping
  · simp only [paced, hp, if_true, true_and]
    rfl
  · simp only [paced, hp, if_false, true_and]
    rfl

lemma count_sweep (s : Service) (now : Nat) (places : Places) :
    (s.paced.sweep now places).1 = (s.sweep now places).1 ∧
      (s.paced.sweep now places).2.count = (s.sweep now places).2.paced := by
  unfold sweep Service.sweep
  by_cases hp : s.phase = .stopping
  · simp only [paced, hp, if_true, true_and]
    rfl
  · simp only [paced, hp, if_false, true_and]
    rfl

variable {s : Service} {l : Look}

lemma Reaches.sweep (now : Nat) (places : Places) (h : Reaches p₀ es s.paced)
    (hout : s.outbox = []) (hcan : s.canSweep = true) :
    Reaches p₀ (es ++ (s.sweep now places).1) (s.sweep now places).2.paced := by
  have made : s.paced.step? (.sweep now places) = some (s.paced.sweep now places) :=
    if_pos ⟨⟨rfl, hout⟩, hcan⟩
  obtain ⟨hes, hs⟩ := count_sweep s now places
  rw [← hes, ← hs]
  exact (h.step made).count

lemma Reaches.endLook (result : Except Backend.Error (List Observation)) (now : Nat)
    (h : Reaches p₀ es s.paced) (hl : l ∈ s.looks) (hout : s.outbox = []) :
    Reaches p₀ (es ++ (s.endLook l result now).1) (s.endLook l result now).2.paced := by
  have hover : s.paced.step? (.endLook l result) = some ([], s.paced.endLook l result) :=
    if_pos ⟨hl, rfl⟩
  have hgone : ∀ os : List Observation, [(l, os)].filter (·.1 ≠ l) = [] := by simp
  -- the state in which the round of the look begins, and what the look has seen
  obtain ⟨t, os, hend, hclosed, hwaiting, hidle⟩ : ∃ (t : Service) (os : List Observation),
      s.endLook l result now = t.commit os now ∧
      (s.paced.endLook l result).closeLook l = t.paced ∧
      (s.paced.endLook l result).waiting = [(l, os)] ∧ (s.paced.endLook l result).Idle := by
    cases result with
    | ok os => exact ⟨_, os, rfl, congrArg (Paced.mk _ · none) (hgone os), rfl, rfl, hout⟩
    | error e => exact ⟨_, [], rfl, congrArg (Paced.mk _ · none) (hgone []), rfl, rfl, hout⟩
  have hcommit : (s.paced.endLook l result).step? (.commit l now) =
      some (t.paced.commit os now) := by
    simp [step?, hwaiting, hidle, hclosed]
  obtain ⟨hes, hs⟩ := count_commit t os now
  have hdone := ((h.step hover).step hcommit).count
  rw [List.append_nil, hes, hs, ← hend] at hdone
  exact hdone

/-- **A run of a service is a run in smaller steps,** with the same events. -/
theorem reaches_of_run {s₀ : Service} {past : List Service.Moment} (h : Service.Run s₀ past s) :
    Reaches s₀.paced (history Service.Moment.events past) s.paced := by
  induction h with
  | start => exact ⟨[], .start, rfl⟩
  | @step past s s' a es run made ih =>
    have hwhole : isWhole a = true → s.paced.step? (.whole a) = some (es, s'.paced) := fun ha => by
      simp only [step?, ha, if_true, paced, made]
      rfl
    rw [history_cons]
    cases a with
    | finish l result now =>
      obtain ⟨hl, hout, he⟩ := step?_finish made
      have hdone := ih.endLook result now hl hout
      rw [he] at hdone
      exact hdone
    | sweepTick now places | sweep now places =>
      simp only [Service.step?, Option.ite_none_right_eq_some, Option.some.injEq] at made
      have hdone := ih.sweep now places (by simp [made.1]) (by simp [made.1])
      rw [made.2] at hdone
      exact hdone
    | tell =>
      simp only [Service.step?, Option.ite_none_left_eq_some, Option.some.injEq] at made
      obtain ⟨hout, rfl, rfl⟩ := made
      exact ih.step (a := .tell) (if_pos ⟨rfl, hout⟩)
    | abandon l =>
      simp only [Service.step?, Option.ite_none_right_eq_some, Option.some.injEq] at made
      obtain ⟨hstop, rfl, rfl⟩ := made
      exact ih.step (a := .abandon l) (if_pos hstop)
    | _ => exact ih.step (hwhole rfl)

end Paced

end NodeWatch.Service
