import NodeWatch.Proofs.Service.Run

/-!
The events as a log of the changes of the roster.

An observer that comes before the first round and whose queue never overflows is handed a sequence
of changes. When it has been handed all of them, they add up to the roster.
-/

namespace NodeWatch.Service

variable {c : Config.Discovery} {backend : String} {pins : Bool} {metrics : Metrics}
  {clock : Time.Clock} {s₀ s : Service} {earlier later : List Moment} {m : Moment}

/-- Before the first round there is nothing to tell, so all that is ever told comes later. -/
lemma Run.told_later (hmake : make c backend pins metrics clock = .ok s₀)
    (hrun : Run s₀ (later ++ m :: earlier) s) (hm : m.action.isRound = false)
    (hfirst : ∀ k ∈ earlier, k.action.isRound = false) :
    history Moment.told later ++ s.outbox = history Moment.events later := by
  obtain ⟨-, hout, -⟩ := make_eq_ok hmake
  have hnone : ∀ k ∈ m :: earlier, k.action.isRound = false := by
    intro k hk
    rcases List.mem_cons.mp hk with rfl | hk
    · exact hm
    · exact hfirst k hk
  have hevents : history Moment.events (m :: earlier) = [] :=
    history_eq_nil fun k hk => hrun.events_eq_nil (by simp at hk ⊢; tauto) (hnone k hk)
  obtain ⟨s', hpast, hstep, -⟩ := hrun.split
  have htold : history Moment.told (m :: earlier) = [] := by
    have h := (hpast.step hstep).told_append_outbox hout
    rw [hevents] at h
    exact (List.append_eq_nil_iff.mp h).1
  have h := hrun.told_append_outbox hout
  rwa [history_append, history_append, hevents, htold, List.nil_append, List.nil_append] at h

/-- All that is told later adds up to the roster, since in the beginning there is nobody. -/
lemma Run.replay?_later (hmake : make c backend pins metrics clock = .ok s₀)
    (hrun : Run s₀ (later ++ m :: earlier) s) (hm : m.action.isRound = false)
    (hfirst : ∀ k ∈ earlier, k.action.isRound = false) :
    s.roster.Distinct ∧
      Picture.empty.replay? (history Moment.told later ++ s.outbox) = some s.roster.picture := by
  obtain ⟨hroster, -, -⟩ := make_eq_ok hmake
  obtain ⟨hdist, hrep⟩ := hrun.replay? (by rw [hroster]; exact Roster.distinct_empty)
  have hnone : history Moment.events (m :: earlier) = [] := history_eq_nil fun k hk => by
    rcases List.mem_cons.mp hk with rfl | hk
    · exact hrun.events_eq_nil (by simp) hm
    · exact hrun.events_eq_nil (by simp [hk]) (hfirst k hk)
  rw [history_append, hnone, List.nil_append, hroster] at hrep
  rw [hrun.told_later hmake hm hfirst]
  exact ⟨hdist, hrep⟩

/-- Whoever comes begins with an empty queue. -/
lemma find?_of_subscribe {s s' : Service} {es : List Event} {name : String}
    (hn : s.workers.bus.Numbered) (h : s.step? (.subscribe name) = some (es, s')) :
    s'.workers.bus.find? s.workers.bus.nextId =
      some { id := s.workers.bus.nextId, name } := by
  cases steps_of_step? h with
  | subscribe => simp [hn.find?_subscribe]

/-- **What an observer is handed is a log of the changes of the roster.** Every event is a change
of the picture that the events before it make. They are those of the rounds in their order, where an
event that tells that somebody is lost tells the last observation of a member. As long as the
observer stays, what it has been handed, what waits in its queue and what the round under way has
still to tell add up to the members with their data. -/
theorem handed_replays_to_roster (hmake : make c backend pins metrics clock = .ok s₀)
    (hrun : Run s₀ (later ++ m :: earlier) s) {name : String} (hsub : m.action = .subscribe name)
    (hfirst : ∀ k ∈ earlier, k.action.isRound = false)
    (hroom : HasRoom m.before.workers.bus.nextId later) :
    (∃ p, Picture.empty.replay? (history (Moment.handed m.before.workers.bus.nextId) later) =
        some p) ∧
      history (Moment.handed m.before.workers.bus.nextId) later <+: history Moment.events later ∧
      (∀ k ∈ later, ∀ e ∈ k.events, e.kind = .lost →
        ∃ n ∈ k.before.roster.members, n.node = e.node) ∧
      s.roster.Distinct ∧
      ((∀ k ∈ later, k.action ≠ .unsubscribe m.before.workers.bus.nextId) →
        ∃ o, s.workers.bus.find? m.before.workers.bus.nextId = some o ∧
          Picture.empty.replay?
            (history (Moment.handed m.before.workers.bus.nextId) later ++ o.queue ++ s.outbox) =
              some s.roster.picture) := by
  have hround : m.action.isRound = false := by rw [hsub]; rfl
  obtain ⟨-, hout, hnum⟩ := make_eq_ok hmake
  have htold := hrun.told_later hmake hround hfirst
  obtain ⟨hdist, hrep⟩ := hrun.replay?_later hmake hround hfirst
  obtain ⟨s', hpast, hstep, hlater⟩ := hrun.split
  have hnum' := (hpast.step hstep).numbered hnum
  rw [hsub] at hstep
  have ho₀ := find?_of_subscribe (hpast.numbered hnum) hstep
  obtain ⟨o, ho, ⟨rest, hrest⟩, hall, hstay⟩ :=
    hlater.handed_append_queue hnum' ho₀ rfl rfl hroom
  refine ⟨?changes, ?sources, fun k hk e he => hlater.lost_mem hk he, hdist,
    fun hstays => ⟨o, ho, ?_⟩⟩
  case changes =>
    rw [← hrest, List.append_assoc, List.append_assoc] at hrep
    exact Picture.replay?_of_append hrep
  case sources =>
    rw [← htold, ← hrest, List.append_assoc, List.append_assoc]
    exact List.prefix_append _ _
  · rw [hall (hstay hstays)]
    exact hrep

/-- A node is seen, and the observer is handed the event. -/
theorem handed_replays_to_roster_after_one_look :
    ∃ (s₀ s : Service) (past : List Moment), make {} "broadcast" false {} = .ok s₀ ∧ Run s₀ past s ∧
      s.roster.size = 1 ∧
      Picture.empty.replay? (history (Moment.handed 1) past) = some s.roster.picture := by
  let fresh : Service :=
    { settings := .ofConfig {} "broadcast" false, workers := { bus := .ofCapacity 256 } }
  have hmake : make {} "broadcast" false {} = .ok fresh := by
    have hfault : Config.Discovery.fault? {} = none := by decide
    unfold make
    rw [hfault]
    rfl
  let o : Observation := .bare "a" "pi" (.v4 10 0 0 1) 80 (.ofSeconds 0)
  have h₁ : Run fresh _ _ := Run.start.step (a := .subscribe "log") rfl
  have h₂ := h₁.step (a := .ask) rfl
  have h₃ := h₂.step (a := .finish ⟨0, false⟩ (.ok [o]) 7) rfl
  have h₄ := h₃.step (a := .tell) rfl
  have h₅ : Run fresh ([_, _, _, _] ++ _ :: []) _ := h₄.step (a := .take 1) rfl
  refine ⟨_, _, _, hmake, h₅, ?_⟩
  obtain ⟨-, -, -, -, hlog⟩ := handed_replays_to_roster hmake h₅ rfl (by simp) (by
      intro k hk ht o ho _
      simp only [List.mem_cons, List.not_mem_nil, or_false] at hk
      rcases hk with rfl | rfl | rfl | rfl
      · exact absurd rfl ht
      · rw [← Option.some.inj ho]
        rfl
      · exact absurd rfl ht
      · exact absurd rfl ht)
  obtain ⟨o, ho, hrep⟩ := hlog (by simp)
  rw [← Option.some.inj ho] at hrep
  exact ⟨rfl, hrep⟩

end NodeWatch.Service
