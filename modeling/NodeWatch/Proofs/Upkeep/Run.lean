import NodeWatch.Proofs.Service.Run
import NodeWatch.Upkeep

/-!
Runs of a service with a reconciler, and what the reconciler was handed in them.
-/

namespace NodeWatch.Upkeep

open Store

/-- A step of a run, and the state before it. -/
structure Moment where
  before : Upkeep
  action : Action

/-- The moments from one state to another, the last first. -/
inductive Run (u₀ : Upkeep) : List Moment → Upkeep → Prop where
  | start : Run u₀ [] u₀
  | step {past : List Moment} {u u' : Upkeep} {a : Action}
    (run : Run u₀ past u) (made : u.step? a = some u') : Run u₀ (⟨u, a⟩ :: past) u'

/-- Actions in their order, if each of them can be taken. -/
def play? (u : Upkeep) (past : List Moment) : List Action → Option (List Moment × Upkeep)
  | [] => some (past, u)
  | a :: as => (u.step? a).bind fun u' => u'.play? (⟨u, a⟩ :: past) as

namespace Moment

/-- What the service does. -/
def serves (m : Moment) : Service.Action :=
  match m.action with
  | .serve a => a
  | .reconcile .. => .done m.before.reconciler

/-- The moment as the service knows it. -/
def served (m : Moment) : Service.Moment :=
  ⟨m.before.service, m.serves, ((m.before.service.step? m.serves).map (·.1)).getD []⟩

/-- The event that the reconciler is through with, and what has become of it. -/
def handled? (m : Moment) : Option (Event × Except Reconcile.Error Reconcile.Outcome) :=
  match m.action with
  | .serve _ => none
  | .reconcile c suffix => m.before.taken?.map fun e => (e, (handle c suffix e m.before.store).1)

/-- The event that the reconciler is through with, well or badly. -/
def tried (m : Moment) : List Event := (m.handled?.map (·.1)).toList

/-- The event that is reconciled without error. -/
def settled (m : Moment) : List Event :=
  match m.handled? with
  | some (e, .ok _) => [e]
  | _ => []

end Moment

variable {u₀ u u' : Upkeep} {past : List Moment}

/-- A run through a moment passes the state after it. -/
lemma Run.made {later earlier : List Moment} {k : Moment} (h : Run u₀ (later ++ k :: earlier) u) :
    ∃ u', k.before.step? k.action = some u' := by
  induction later generalizing u with
  | nil =>
    cases h with
    | step run made => exact ⟨u, made⟩
  | cons j later ih =>
    cases h with
    | step run made => exact ih run

lemma Run.play? {as : List Action} {past' : List Moment} (h : Run u₀ past u)
    (hplay : u.play? past as = some (past', u')) : Run u₀ past' u' := by
  induction as generalizing u past with
  | nil =>
    obtain ⟨rfl, rfl⟩ : past = past' ∧ u = u' := by simpa [Upkeep.play?] using hplay
    exact h
  | cons a as ih =>
    obtain ⟨u₁, hu₁, hplay⟩ := Option.bind_eq_some_iff.mp hplay
    exact ih (h.step hu₁) hplay

/-! ### What one step does -/

lemma step?_serve {a : Service.Action} (h : u.step? (.serve a) = some u') :
    u.isOwn a = false ∧ ∃ es s', u.service.step? a = some (es, s') ∧
      u' = { u with service := s' } := by
  simp only [step?] at h
  split at h
  · simp at h
  next hown =>
    obtain ⟨⟨es, s'⟩, hs, rfl⟩ := Option.map_eq_some_iff.mp h
    exact ⟨by simpa using hown, es, s', hs, rfl⟩

lemma step?_reconcile {c : Course} {suffix : List Char}
    (h : u.step? (.reconcile c suffix) = some u') :
    ∃ e, u.taken? = some e ∧ u'.store = (handle c suffix e u.store).2 ∧
      u'.reconciler = u.reconciler ∧
      u.service.step? (.done u.reconciler) = some ([], u'.service) := by
  simp only [step?] at h
  obtain ⟨e, he, rfl⟩ := Option.map_eq_some_iff.mp h
  exact ⟨e, he, rfl, rfl, rfl⟩

/-- A step of the whole is a step of the service. -/
lemma step?_served {a : Action} (h : u.step? a = some u') :
    u.service.step? (⟨u, a⟩ : Moment).serves =
        some ((⟨u, a⟩ : Moment).served.events, u'.service) ∧
      u'.reconciler = u.reconciler := by
  cases a with
  | serve a =>
    obtain ⟨-, es, s', hs, rfl⟩ := step?_serve h
    refine ⟨?_, rfl⟩
    simp only [Moment.served, Moment.serves, hs, Option.map_some, Option.getD_some]
  | reconcile c suffix =>
    obtain ⟨e, -, -, hr, hs⟩ := step?_reconcile h
    refine ⟨?_, hr⟩
    simp only [Moment.served, Moment.serves, hs, Option.map_some, Option.getD_some]

/-! ### What a run adds up to -/

lemma Run.served (h : Run u₀ past u) :
    Service.Run u₀.service (past.map Moment.served) u.service ∧
      u.reconciler = u₀.reconciler := by
  induction h with
  | start => exact ⟨.start, rfl⟩
  | step run made ih =>
    obtain ⟨hrun, hr⟩ := ih
    obtain ⟨hstep, hr'⟩ := step?_served made
    exact ⟨hrun.step hstep, hr'.trans hr⟩

/-- **The reconciler goes through what it is handed**, in that order, one after the other. -/
lemma Run.tried_append_taken (h : Run u₀ past u) (hn : u₀.service.workers.bus.Numbered)
    (h₀ : u₀.taken? = none) :
    Service.history Moment.tried past ++ u.taken?.toList =
      Service.history (Service.Moment.handed u₀.reconciler) (past.map Moment.served) := by
  induction h with
  | start => simp [h₀]
  | @step past u u' a run made ih =>
    obtain ⟨hrun, hr⟩ := run.served
    have hnum := hrun.numbered hn
    obtain ⟨hstep, hr'⟩ := step?_served made
    rw [List.map_cons, Service.history_cons, Service.history_cons, ← ih]
    cases a with
    | serve a =>
      obtain ⟨hown, -⟩ := step?_serve made
      have hne : a ≠ .done u.reconciler := fun he => by simp [he, isOwn] at hown
      have hhandling := Service.handling_step hnum hstep hne
      have htried : (⟨u, .serve a⟩ : Moment).tried = [] := rfl
      rw [htried, List.append_nil, List.append_assoc, taken?, taken?, hr', ← hr]
      exact congrArg _ hhandling
    | reconcile c suffix =>
      obtain ⟨e, he, -, -, hs⟩ := step?_reconcile made
      have hidle : u'.taken? = none := by
        simp only [Service.step?, Option.some.injEq, Prod.mk.injEq, true_and] at hs
        have hf : u'.service.workers.bus.find? u.reconciler =
            if u.reconciler = u.reconciler then
              (u.service.workers.bus.find? u.reconciler).map fun o => { o with handling := none }
            else u.service.workers.bus.find? u.reconciler := by
          rw [← hs]
          exact Bus.find?_modify _ _ _ fun _ => rfl
        rw [taken?, hr', hf, if_pos rfl]
        cases u.service.workers.bus.find? u.reconciler <;> rfl
      have htried : (⟨u, .reconcile c suffix⟩ : Moment).tried = [e] := by
        simp [Moment.tried, Moment.handled?, he]
      have hhanded : (⟨u, .reconcile c suffix⟩ : Moment).served.handed u₀.reconciler = [] := rfl
      rw [hidle, he, htried, hhanded]
      simp

/-! ### From the beginning -/

/-- Nothing is under way between a round and the end of a reconciliation. -/
def Idle (u : Upkeep) : Prop :=
  u.service.outbox = [] ∧ ∃ o ∈ u.service.workers.bus.find? u.reconciler,
    o.queue = [] ∧ o.handling = none

instance (u : Upkeep) : Decidable u.Idle :=
  inferInstanceAs (Decidable (u.service.outbox = [] ∧
    ∃ o ∈ u.service.workers.bus.find? u.reconciler, o.queue = [] ∧ o.handling = none))

variable {c : Config.Discovery} {backend : String} {pins : Bool} {metrics : Metrics}
  {clock : Time.Clock} {s₀ : Service} {store : Repository}

/-- The reconciler begins with nothing to do. -/
lemma begin_observer (store : Repository) (hn : s₀.workers.bus.Numbered) :
    (begin s₀ store).service.workers.bus.find? (begin s₀ store).reconciler =
      some { id := s₀.workers.bus.nextId, name := "reconciler" } := by
  have h := hn.find?_subscribe s₀.workers.bus.nextId "reconciler"
  rw [if_pos rfl] at h
  exact h

lemma Run.stays (h : Run u₀ past u) :
    ∀ k ∈ past.map Moment.served, k.action ≠ .unsubscribe u₀.reconciler := by
  induction h with
  | start => simp
  | @step past u u' a run made ih =>
    obtain ⟨-, hr⟩ := run.served
    rw [List.map_cons]
    intro k hk
    rcases List.mem_cons.mp hk with rfl | hk
    · cases a with
      | serve a =>
        obtain ⟨hown, -⟩ := step?_serve made
        rintro (rfl : a = _)
        simp [isOwn, hr] at hown
      | reconcile c suffix => simp [Moment.served, Moment.serves]
    · exact ih k hk

/-- The members are what the events of a run add up to. -/
lemma Run.replay? (hmake : Service.make c backend pins metrics clock = .ok s₀)
    (h : Run (begin s₀ store) past u) :
    u.service.roster.Distinct ∧
      Picture.empty.replay? (Service.history Service.Moment.events (past.map Moment.served)) =
        some u.service.roster.picture := by
  obtain ⟨hroster, -, -⟩ := Service.make_eq_ok hmake
  have hempty : (begin s₀ store).service.roster = .empty := hroster
  have hd : (begin s₀ store).service.roster.Distinct := by
    rw [hempty]
    exact Roster.distinct_empty
  have hreplay := h.served.1.replay? hd
  rwa [hempty, Roster.picture_empty] at hreplay

/-- If the queue never overflows, then in the end the reconciler has gone through all events. -/
lemma Run.tried_eq_events (hmake : Service.make c backend pins metrics clock = .ok s₀)
    (h : Run (begin s₀ store) past u)
    (hroom : Service.HasRoom s₀.workers.bus.nextId (past.map Moment.served)) (hidle : u.Idle) :
    Service.history Moment.tried past =
      Service.history Service.Moment.events (past.map Moment.served) := by
  obtain ⟨-, hout, hnum⟩ := Service.make_eq_ok hmake
  obtain ⟨hout', o, ho, hqueue, hhandling⟩ := hidle
  obtain ⟨hrun, hr⟩ := h.served
  have hbegin := begin_observer store hnum
  have hnum' : (begin s₀ store).service.workers.bus.Numbered := hnum.subscribe _
  have htaken : u.taken? = none := by
    rw [taken?, Option.mem_def.mp ho]
    exact hhandling
  have htaken₀ : (begin s₀ store).taken? = none := by
    rw [taken?, hbegin]
    rfl
  have htried := h.tried_append_taken hnum' htaken₀
  rw [htaken, Option.toList_none, List.append_nil] at htried
  have htold := hrun.told_append_outbox hout
  rw [hout', List.append_nil] at htold
  obtain ⟨o', ho', -, hall, hstay⟩ := hrun.handed_append_queue hnum' hbegin rfl rfl hroom
  rw [← hr, Option.mem_def.mp ho] at ho'
  obtain rfl := Option.some.inj ho'
  have hhanded := hall (hstay h.stays)
  rw [hqueue, List.append_nil] at hhanded
  rw [htried, ← htold, ← hhanded]

end NodeWatch.Upkeep
