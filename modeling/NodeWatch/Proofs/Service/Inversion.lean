import Mathlib.Tactic.Common
import NodeWatch.Service

/-!
What a service does in one step.

The steps are told as a relation: one case for each thing that can happen, with all that it needs.
Whatever is said of every step is said case by case, and only here is the function opened that makes
them.
-/

namespace NodeWatch.Service

/-- The steps with what each needs and what it makes. -/
inductive Steps (s : Service) : Action → List Event → Service → Prop where
  | tick (free : s.phase = .running ∧ s.isBusy = false ∨ s.jammed = true) :
    Steps s .tick [] (s.beginLook true).2
  | ask : Steps s .ask [] (s.beginLook false).2
  | finish {l : Look} {result : Except Backend.Error (List Observation)} {now : Nat}
    (under : l ∈ s.looks) (quiet : s.outbox = []) :
    Steps s (.finish l result now) (s.endLook l result now).1 (s.endLook l result now).2
  | abandon {l : Look} (stops : s.phase = .stopping) (calm : s.jammed = false)
    (under : l ∈ s.looks) (background : l.background = true) :
    Steps s (.abandon l) [] (s.closeLook l)
  | sweepTick {now : Nat} {places : Places} (runs : s.phase = .running) (quiet : s.outbox = [])
    (period : s.settings.hasPeriod = true) (able : s.canSweep = true) :
    Steps s (.sweepTick now places) (s.sweep now places).1 (s.sweep now places).2
  | sweep {now : Nat} {places : Places} (quiet : s.outbox = []) (able : s.canSweep = true) :
    Steps s (.sweep now places) (s.sweep now places).1 (s.sweep now places).2
  | tell {e : Event} {rest : List Event} (outbox : s.outbox = e :: rest) :
    Steps s .tell [] ({ s with outbox := rest }.tell e)
  | start (stopped : s.phase = .stopped) : Steps s .start [] { s with phase := .running }
  | refuse (free : s.phase = .stopping → s.jammed = true) (up : s.phase ≠ .stopped) :
    Steps s .start [] s
  | stop (free : s.phase = .stopping → s.jammed = true) : Steps s .stop [] s.beginStop
  | stopped (stops : s.phase = .stopping) (calm : s.jammed = false) (idle : s.isBusy = false) :
    Steps s .stopped [] s.endStop
  | jam {now : Nat} (stops : s.phase = .stopping) (late : s.settings.hasDeadline now = false) :
    Steps s (.jam now) [] s.jam
  | subscribe (name : String) :
    Steps s (.subscribe name) [] { s with workers := (s.workers.subscribe name).2 }
  | unsubscribe (id : Nat) :
    Steps s (.unsubscribe id) [] { s with workers := (s.workers.unsubscribe id).2 }
  | take {id : Nat} {e : Event} {bus : Bus} (found : s.workers.bus.take? id = some (e, bus)) :
    Steps s (.take id) [] { s with workers := { s.workers with bus } }
  | done (id : Nat) :
    Steps s (.done id) [] { s with workers := { s.workers with bus := s.workers.bus.finish id } }

variable {s s' : Service} {a : Action} {es : List Event}

/-- A start is made while nothing is in its way, and is refused while the service is up. -/
lemma steps_start (made : s.step? .start = some (es, s')) : Steps s .start es s' := by
  simp only [step?, Option.ite_none_left_eq_some, not_and, Bool.not_eq_false] at made
  obtain ⟨hfree, made⟩ := made
  by_cases hp : s.phase = .stopped
  · have hstart : s.start = .ok { s with phase := .running } := if_pos hp
    rw [hstart] at made
    obtain ⟨rfl, rfl⟩ := Prod.mk.inj (Option.some.inj made)
    exact .start hp
  · have hstart : s.start = .error .alreadyRunning := if_neg hp
    rw [hstart] at made
    obtain ⟨rfl, rfl⟩ := Prod.mk.inj (Option.some.inj made)
    exact .refuse hfree hp

/-- **Nothing else can happen.** -/
theorem steps_of_step? (made : s.step? a = some (es, s')) : Steps s a es s' := by
  cases a with
  | tick =>
    simp only [step?, Option.ite_none_right_eq_some, Option.some.injEq, Prod.mk.injEq] at made
    obtain ⟨hfree, rfl, rfl⟩ := made
    exact .tick hfree
  | finish l result now =>
    simp only [step?, Option.ite_none_right_eq_some] at made
    obtain ⟨⟨hl, hout⟩, made⟩ := made
    have hstep : Steps s (.finish l result now) _ _ := .finish hl hout
    rwa [Option.some.inj made] at hstep
  | abandon l =>
    simp only [step?, Option.ite_none_right_eq_some, Option.some.injEq, Prod.mk.injEq] at made
    obtain ⟨⟨hp, hj, hl, hb⟩, rfl, rfl⟩ := made
    exact .abandon hp hj hl hb
  | sweepTick now places =>
    simp only [step?, Option.ite_none_right_eq_some] at made
    obtain ⟨⟨hp, hout, hperiod, hable⟩, made⟩ := made
    have hstep : Steps s (.sweepTick now places) _ _ := .sweepTick hp hout hperiod hable
    rwa [Option.some.inj made] at hstep
  | sweep now places =>
    simp only [step?, Option.ite_none_right_eq_some] at made
    obtain ⟨⟨hout, hable⟩, made⟩ := made
    have hstep : Steps s (.sweep now places) _ _ := .sweep hout hable
    rwa [Option.some.inj made] at hstep
  | tell =>
    cases hout : s.outbox with
    | nil => simp [step?, hout] at made
    | cons e rest =>
      simp only [step?, hout, tellNext, reduceCtorEq, if_false, Option.some.injEq,
        Prod.mk.injEq] at made
      obtain ⟨rfl, rfl⟩ := made
      exact .tell hout
  | start => exact steps_start made
  | stop =>
    simp only [step?, Option.ite_none_left_eq_some, Option.some.injEq, Prod.mk.injEq, not_and,
      Bool.not_eq_false] at made
    obtain ⟨hfree, rfl, rfl⟩ := made
    exact .stop hfree
  | stopped =>
    simp only [step?, Option.ite_none_right_eq_some, Option.some.injEq, Prod.mk.injEq] at made
    obtain ⟨⟨hp, hj, hidle⟩, rfl, rfl⟩ := made
    exact .stopped hp hj hidle
  | jam now =>
    simp only [step?, Option.ite_none_right_eq_some, Option.some.injEq, Prod.mk.injEq] at made
    obtain ⟨⟨hp, hlate⟩, rfl, rfl⟩ := made
    exact .jam hp hlate
  | take id =>
    simp only [step?, Option.map_eq_some_iff, Prod.mk.injEq, Prod.exists] at made
    obtain ⟨e, bus, hfound, rfl, rfl⟩ := made
    exact .take hfound
  | ask | subscribe name | unsubscribe id | done id =>
    obtain ⟨rfl, rfl⟩ := Prod.mk.inj (Option.some.inj made)
    constructor

end NodeWatch.Service
