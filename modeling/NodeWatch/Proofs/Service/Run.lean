import NodeWatch.Proofs.Bus.Queue
import NodeWatch.Proofs.Roster.Picture
import NodeWatch.Proofs.Service.Inversion

/-!
Runs of a service, and what has happened in them.

A run is kept as the moments it consists of, the last first. What its events add up to is the
picture of the roster; what has been told of them is a beginning of them; and what an observer was
handed is a beginning of what it was told.
-/

namespace NodeWatch.Service

/-- A step of a run: the state before it, and the events of the round if it is one. -/
structure Moment where
  before : Service
  action : Action
  events : List Event

/-- The moments from one state to another, the last first. -/
inductive Run (s₀ : Service) : List Moment → Service → Prop where
  | start : Run s₀ [] s₀
  | step {past : List Moment} {s s' : Service} {a : Action} {es : List Event}
    (run : Run s₀ past s) (made : s.step? a = some (es, s')) : Run s₀ (⟨s, a, es⟩ :: past) s'

/-- A round of looking or sweeping, discarded or not. -/
def Action.isRound : Action → Bool
  | finish .. | sweepTick .. | sweep .. => true
  | _ => false

/-- The event that a moment tells. -/
def Moment.told (m : Moment) : List Event :=
  match m.action with
  | .tell => m.before.outbox.head?.toList
  | _ => []

/-- The event that a moment hands to an observer. -/
def Moment.handed (id : Nat) (m : Moment) : List Event :=
  match m.action with
  | .take j => if j = id then ((m.before.workers.bus.take? id).map (·.1)).toList else []
  | _ => []

section

variable {μ : Type}

/-- What moments add up to, in the order of time. -/
def history (f : μ → List Event) : List μ → List Event
  | [] => []
  | m :: past => history f past ++ f m

@[simp] lemma history_nil (f : μ → List Event) : history f [] = [] := rfl

@[simp] lemma history_cons (f : μ → List Event) (m : μ) (past : List μ) :
    history f (m :: past) = history f past ++ f m := rfl

lemma history_append (f : μ → List Event) (later past : List μ) :
    history f (later ++ past) = history f past ++ history f later := by
  induction later with
  | nil => simp
  | cons m later ih => simp [ih]

lemma mem_history {f : μ → List Event} {past : List μ} {e : Event} :
    e ∈ history f past ↔ ∃ m ∈ past, e ∈ f m := by
  induction past with
  | nil => simp
  | cons m past ih => simp [ih, or_comm]

lemma history_eq_nil {f : μ → List Event} {past : List μ}
    (h : ∀ m ∈ past, f m = []) : history f past = [] := by
  induction past with
  | nil => rfl
  | cons m past ih =>
    rw [history_cons, ih fun k hk => h k (by simp [hk]), h m (by simp), List.append_nil]

end

/-- The last moment of a run leads to its end. -/
lemma Run.last {s₀ s : Service} {past : List Moment} {m : Moment} (h : Run s₀ (m :: past) s) :
    Run s₀ past m.before ∧ m.before.step? m.action = some (m.events, s) := by
  cases h with
  | step run made => exact ⟨run, made⟩

/-- A run through a moment passes the state after it. -/
lemma Run.split {s₀ s : Service} {later past : List Moment} {m : Moment}
    (h : Run s₀ (later ++ m :: past) s) :
    ∃ s', Run s₀ past m.before ∧ m.before.step? m.action = some (m.events, s') ∧
      Run s' later s := by
  induction later generalizing s with
  | nil =>
    cases h with
    | step run made => exact ⟨s, run, made, .start⟩
  | cons k later ih =>
    cases h with
    | step run made =>
      obtain ⟨s', hpast, hm, hlater⟩ := ih run
      exact ⟨s', hpast, hm, hlater.step made⟩

/-! ### What one step does -/

variable {s s' : Service} {a : Action} {es : List Event}

@[simp] lemma counting_roster (s : Service) (f : Metrics → Metrics) :
    (s.counting f).roster = s.roster := rfl
@[simp] lemma counting_outbox (s : Service) (f : Metrics → Metrics) :
    (s.counting f).outbox = s.outbox := rfl
@[simp] lemma counting_bus (s : Service) (f : Metrics → Metrics) :
    (s.counting f).workers.bus = s.workers.bus := rfl
@[simp] lemma counting_phase (s : Service) (f : Metrics → Metrics) :
    (s.counting f).phase = s.phase := rfl
@[simp] lemma counting_settings (s : Service) (f : Metrics → Metrics) :
    (s.counting f).settings = s.settings := rfl

@[simp] lemma closeLook_roster (s : Service) (l : Look) : (s.closeLook l).roster = s.roster := rfl
@[simp] lemma closeLook_outbox (s : Service) (l : Look) : (s.closeLook l).outbox = s.outbox := rfl
@[simp] lemma closeLook_bus (s : Service) (l : Look) :
    (s.closeLook l).workers.bus = s.workers.bus := rfl

@[simp] lemma beginStop_roster (s : Service) : s.beginStop.roster = s.roster := by
  unfold beginStop; split <;> rfl
@[simp] lemma beginStop_outbox (s : Service) : s.beginStop.outbox = s.outbox := by
  unfold beginStop; split <;> rfl
@[simp] lemma beginStop_bus (s : Service) : s.beginStop.workers.bus = s.workers.bus := by
  unfold beginStop; split <;> rfl

/-- What a round makes of a state: nothing if it is discarded, else a change of the roster whose
events wait in the outbox. -/
inductive Rounds (s : Service) : List Event → Service → Prop where
  | discarded {s' : Service} (roster : s'.roster = s.roster) (outbox : s'.outbox = s.outbox)
    (bus : s'.workers.bus = s.workers.bus) : Rounds s [] s'
  | looked {s' : Service} (now : Nat) (os : List Observation)
    (roster : s'.roster =
      (s.roster.observeAll s.settings.pins now (Observation.latestById os)).2)
    (outbox : s'.outbox = s.outbox ++
      (s.roster.observeAll s.settings.pins now (Observation.latestById os)).1)
    (bus : s'.workers.bus = s.workers.bus) :
    Rounds s (s.roster.observeAll s.settings.pins now (Observation.latestById os)).1 s'
  | swept {s' : Service} (now : Nat) (places : Places)
    (roster : s'.roster = (s.roster.sweep s.settings.threshold now places).2)
    (outbox : s'.outbox = s.outbox ++
      (s.roster.sweep s.settings.threshold now places).1.map (⟨.lost, ·⟩))
    (bus : s'.workers.bus = s.workers.bus) :
    Rounds s ((s.roster.sweep s.settings.threshold now places).1.map (⟨.lost, ·⟩)) s'

lemma Rounds.bus {s s' : Service} {es : List Event} (h : Rounds s es s') :
    s'.workers.bus = s.workers.bus := by
  cases h <;> assumption

lemma rounds_commit (s : Service) (os : List Observation) (now : Nat) :
    Rounds s (s.commit os now).1 (s.commit os now).2 := by
  unfold commit
  split
  · exact .discarded rfl rfl rfl
  · exact .looked now os rfl rfl rfl

lemma rounds_sweep (s : Service) (now : Nat) (places : Places) :
    Rounds s (s.sweep now places).1 (s.sweep now places).2 := by
  unfold sweep
  split
  · exact .discarded rfl rfl rfl
  · exact .swept now places rfl rfl rfl

lemma rounds_endLook (s : Service) (l : Look)
    (result : Except Backend.Error (List Observation)) (now : Nat) :
    Rounds s (s.endLook l result now).1 (s.endLook l result now).2 := by
  -- what is counted before the roster is changed leaves roster, outbox and bus alone
  have hcount : ∀ (t : Service) (os : List Observation), t.roster = s.roster →
      t.outbox = s.outbox → t.workers.bus = s.workers.bus → t.settings = s.settings →
      Rounds s (t.commit os now).1 (t.commit os now).2 := by
    intro t os hr ho hb hs
    have h := rounds_commit t os now
    generalize (t.commit os now).1 = es at h
    cases h with
    | discarded roster outbox bus =>
      exact .discarded (by rw [roster, hr]) (by rw [outbox, ho]) (by rw [bus, hb])
    | looked n os' roster outbox bus =>
      rw [hr, hs] at roster outbox ⊢
      exact .looked n os' roster (by rw [outbox, ho]) (by rw [bus, hb])
    | swept n places roster outbox bus =>
      rw [hr, hs] at roster outbox ⊢
      exact .swept n places roster (by rw [outbox, ho]) (by rw [bus, hb])
  unfold endLook
  cases result with
  | ok os => exact hcount _ os rfl rfl rfl rfl
  | error e => exact hcount _ [] rfl rfl rfl rfl

/-- The bus after an action that is no round. -/
def busAfter (s : Service) : Action → Bus
  | .tell => (s.outbox.head?.map s.workers.bus.publish).getD s.workers.bus
  | .subscribe name => (s.workers.bus.subscribe name).2
  | .unsubscribe id => (s.workers.bus.unsubscribe id).2
  | .take id => ((s.workers.bus.take? id).map (·.2)).getD s.workers.bus
  | .done id => s.workers.bus.finish id
  | _ => s.workers.bus

/-- **What a step does.** A round changes the roster and fills the outbox, telling empties it, and
everything else leaves both alone. -/
lemma step?_cases (h : s.step? a = some (es, s')) :
    (a.isRound = true ∧ s.outbox = [] ∧ Rounds s es s') ∨
      (a.isRound = false ∧ es = [] ∧ s'.roster = s.roster ∧
        s.outbox = (⟨s, a, es⟩ : Moment).told ++ s'.outbox ∧ s'.workers.bus = s.busAfter a) := by
  cases steps_of_step? h with
  | finish under quiet => exact .inl ⟨rfl, quiet, rounds_endLook s _ _ _⟩
  | sweepTick runs quiet => exact .inl ⟨rfl, quiet, rounds_sweep s _ _⟩
  | sweep quiet => exact .inl ⟨rfl, quiet, rounds_sweep s _ _⟩
  | tell outbox =>
    exact .inr
      ⟨rfl, rfl, rfl, by simp [Moment.told, outbox, tell], by simp [busAfter, outbox, tell]⟩
  | stop => exact .inr ⟨rfl, rfl, by simp, by simp [Moment.told], by simp [busAfter]⟩
  | take found => exact .inr ⟨rfl, rfl, rfl, rfl, by simp [busAfter, found]⟩
  | _ => exact .inr ⟨rfl, rfl, rfl, rfl, rfl⟩

lemma told_of_isRound {m : Moment} (h : m.action.isRound = true) : m.told = [] := by
  unfold Moment.told
  split
  next ha => simp [ha, Action.isRound] at h
  next => rfl

lemma handed_of_isRound {m : Moment} (id : Nat) (h : m.action.isRound = true) :
    m.handed id = [] := by
  unfold Moment.handed
  split
  next ha => simp [ha, Action.isRound] at h
  next => rfl

/-! ### What a run adds up to -/

variable {s₀ : Service} {past : List Moment}

/-- All that is told comes from the rounds, in their order, and the rest waits in the outbox. -/
lemma Run.told_append_outbox (h : Run s₀ past s) (h₀ : s₀.outbox = []) :
    history Moment.told past ++ s.outbox = history Moment.events past := by
  induction h with
  | start => simpa using h₀
  | step run made ih =>
    rcases step?_cases made with ⟨hr, hout, hrounds⟩ | ⟨-, rfl, -, hout, -⟩
    · rw [hout, List.append_nil] at ih
      rw [history_cons, history_cons, told_of_isRound hr, List.append_nil, ih]
      cases hrounds with
      | discarded roster outbox bus => simp [outbox, hout]
      | looked now os roster outbox bus => simp [outbox, hout]
      | swept now places roster outbox bus => simp [outbox, hout]
    · rw [history_cons, history_cons, List.append_nil, ← ih, hout, List.append_assoc]

lemma Rounds.replay? {s s' : Service} {es : List Event} (h : Rounds s es s')
    (hd : s.roster.Distinct) :
    s'.roster.Distinct ∧ s.roster.picture.replay? es = some s'.roster.picture := by
  cases h with
  | discarded roster outbox bus => exact ⟨roster ▸ hd, by simp [roster]⟩
  | looked now os roster outbox bus =>
    rw [roster]
    exact ⟨hd.observeAll _ _ _, Roster.replay?_observeAll _ _ _ _⟩
  | swept now places roster outbox bus =>
    rw [roster]
    exact ⟨hd.sweep _ _ _, Roster.replay?_sweep hd _ _ _⟩

/-- **The events of the rounds are the changes of the roster.** -/
lemma Run.replay? (h : Run s₀ past s) (hd : s₀.roster.Distinct) :
    s.roster.Distinct ∧
      s₀.roster.picture.replay? (history Moment.events past) = some s.roster.picture := by
  induction h with
  | start => exact ⟨hd, rfl⟩
  | step run made ih =>
    obtain ⟨hd', hrep⟩ := ih
    rw [history_cons, Picture.replay?_append, hrep, Option.bind_some]
    rcases step?_cases made with ⟨-, -, hrounds⟩ | ⟨-, rfl, hroster, -, -⟩
    · exact hrounds.replay? hd'
    · rw [hroster]
      exact ⟨hd', rfl⟩

lemma numbered_busAfter (h : s.workers.bus.Numbered) (a : Action) : (s.busAfter a).Numbered := by
  cases a with
  | tell =>
    rw [busAfter]
    cases s.outbox.head? with
    | none => exact h
    | some e => exact h.publish e
  | subscribe name => exact h.subscribe name
  | unsubscribe id => exact h.modify id fun _ => rfl
  | take id =>
    rw [busAfter]
    cases ht : s.workers.bus.take? id with
    | none => exact h
    | some eb =>
      obtain ⟨e, b⟩ := eb
      obtain ⟨-, -, -, -, -, rfl⟩ := Bus.take?_eq_some ht
      exact h.modify id fun _ => rfl
  | done id => exact h.modify id fun _ => rfl
  | _ => exact h

lemma Run.numbered (h : Run s₀ past s) (h₀ : s₀.workers.bus.Numbered) :
    s.workers.bus.Numbered := by
  induction h with
  | start => exact h₀
  | step run made ih =>
    rcases step?_cases made with ⟨-, -, hrounds⟩ | ⟨-, -, -, -, hbus⟩
    · rw [hrounds.bus]
      exact ih
    · rw [hbus]
      exact numbered_busAfter ih _

/-- Events come from rounds alone. -/
lemma Run.events_eq_nil (h : Run s₀ past s) {m : Moment} (hm : m ∈ past)
    (hr : m.action.isRound = false) : m.events = [] := by
  induction h with
  | start => simp at hm
  | step run made ih =>
    rcases List.mem_cons.mp hm with rfl | hm
    · rcases step?_cases made with ⟨ht, -, -⟩ | ⟨-, he, -⟩
      · simp [ht] at hr
      · exact he
    · exact ih hm

/-- Only a sweep tells that somebody is lost, and it tells what was last observed. -/
lemma Run.lost_mem (h : Run s₀ past s) {m : Moment} (hm : m ∈ past) {e : Event}
    (he : e ∈ m.events) (hk : e.kind = .lost) :
    ∃ k ∈ m.before.roster.members, k.node = e.node := by
  induction h with
  | start => simp at hm
  | step run made ih =>
    rcases List.mem_cons.mp hm with rfl | hm
    · rcases step?_cases made with ⟨-, -, hrounds⟩ | ⟨-, rfl, -⟩
      · cases hrounds with
        | discarded roster outbox bus => simp at he
        | looked now os roster outbox bus => exact absurd hk (Roster.kind_observeAll _ _ _ _ e he)
        | swept now places roster outbox bus =>
          obtain ⟨o, ho, rfl⟩ := List.mem_map.mp he
          obtain ⟨k, hmem, -, hnode⟩ := Roster.mem_given_up.mp ho
          exact ⟨k, hmem, hnode⟩
      · simp at he
    · exact ih hm

/-- A new service has no members, nobody to tell, and nothing to tell. -/
lemma make_eq_ok {c : Config.Discovery} {backend : String} {pins : Bool} {m : Metrics}
    {clock : Time.Clock} (h : make c backend pins m clock = .ok s₀) :
    s₀.roster = .empty ∧ s₀.outbox = [] ∧ s₀.workers.bus.Numbered := by
  unfold make at h
  split at h
  · simp at h
  · rw [← Except.ok.inj h]
    exact ⟨rfl, rfl, Bus.numbered_ofCapacity _⟩

/-! ### One observer -/

/-- What an action that is no round makes of an observer. -/
def observerAfter (s : Service) (o : Observer) : Action → Observer
  | .tell =>
    match s.outbox with
    | [] => o
    | e :: _ =>
      if o.subscribed && s.workers.bus.accepts o then { o with queue := o.queue ++ [e] } else o
  | .unsubscribe id => if o.id = id then { o with subscribed := false } else o
  | .take id =>
    match s.workers.bus.take? id with
    | none => o
    | some (e, _) =>
      if o.id = id then { o with queue := o.queue.tail, handling := some e } else o
  | .done id => if o.id = id then { o with handling := none } else o
  | _ => o

section

variable {id : Nat} {o : Observer}

lemma find?_busAfter (hn : s.workers.bus.Numbered) (ho : s.workers.bus.find? id = some o)
    (a : Action) : (s.busAfter a).find? id = some (s.observerAfter o a) := by
  obtain rfl : o.id = id := by simpa using List.find?_some ho
  cases a with
  | tell =>
    cases hbox : s.outbox with
    | nil => simp [busAfter, observerAfter, hbox, ho]
    | cons e rest => simp [busAfter, observerAfter, hbox, Bus.find?_publish, ho]
  | subscribe name =>
    have hne : o.id ≠ s.workers.bus.nextId := fun he => by
      rw [hn.find?_eq_none (Nat.le_of_eq he.symm)] at ho
      simp at ho
    simp [busAfter, observerAfter, hn.find?_subscribe, hne, ho]
  | unsubscribe j =>
    simp only [busAfter, observerAfter, Bus.unsubscribe, Bus.find?_modify, implies_true, ho]
    split <;> rfl
  | take j =>
    cases ht : s.workers.bus.take? j with
    | none => simp [busAfter, observerAfter, ht, ho]
    | some eb =>
      obtain ⟨e, b⟩ := eb
      obtain ⟨-, -, -, -, -, hb⟩ := Bus.take?_eq_some ht
      simp only [busAfter, observerAfter, ht, Option.map_some, Option.getD_some, hb,
        Bus.find?_modify, implies_true, ho]
      split <;> rfl
  | done j =>
    simp only [busAfter, observerAfter, Bus.finish, Bus.find?_modify, implies_true, ho]
    split <;> rfl
  | _ => exact ho

/-- Whoever is new is not at work. -/
lemma find?_busAfter_of_none (hn : s.workers.bus.Numbered) (ho : s.workers.bus.find? id = none)
    (a : Action) : ((s.busAfter a).find? id).bind (·.handling) = none := by
  cases a with
  | tell =>
    cases hbox : s.outbox with
    | nil => simp [busAfter, hbox, ho]
    | cons e rest => simp [busAfter, hbox, Bus.find?_publish, ho]
  | subscribe name =>
    simp only [busAfter, hn.find?_subscribe, ho]
    split <;> rfl
  | unsubscribe j => simp [busAfter, Bus.unsubscribe, Bus.find?_modify, ho]
  | take j =>
    cases ht : s.workers.bus.take? j with
    | none => simp [busAfter, ht, ho]
    | some eb =>
      obtain ⟨e, b⟩ := eb
      obtain ⟨-, -, -, -, -, hb⟩ := Bus.take?_eq_some ht
      simp [busAfter, ht, hb, Bus.find?_modify, ho]
  | done j => simp [busAfter, Bus.finish, Bus.find?_modify, ho]
  | _ => simp [busAfter, ho]

/-- What is handed to an observer is the first of its queue, and its worker was idle. -/
lemma handed_take (es : List Event) (ho : s.workers.bus.find? id = some o) (j : Nat) :
    ((⟨s, .take j, es⟩ : Moment).handed id = [] ∧ s.observerAfter o (.take j) = o) ∨
      ∃ e rest, (⟨s, .take j, es⟩ : Moment).handed id = [e] ∧ o.queue = e :: rest ∧
        o.handling = none ∧
        s.observerAfter o (.take j) = { o with queue := rest, handling := some e } := by
  have hid : o.id = id := by simpa using List.find?_some ho
  by_cases hj : j = id
  · subst hj
    cases ht : s.workers.bus.take? j with
    | none => exact .inl ⟨by simp [Moment.handed, ht], by simp [observerAfter, ht]⟩
    | some eb =>
      obtain ⟨e, b⟩ := eb
      obtain ⟨o', rest, ho', hidle, hq, -⟩ := Bus.take?_eq_some ht
      obtain rfl := Option.some.inj (ho.symm.trans ho')
      exact .inr ⟨e, rest, by simp [Moment.handed, ht], hq, hidle,
        by simp [observerAfter, ht, hid, hq]⟩
  · refine .inl ⟨by simp [Moment.handed, hj], ?_⟩
    simp only [observerAfter, hid, Ne.symm hj, if_false]
    split <;> rfl

end

/-- A moment after which an observer has in its queue what it had: what is handed to it leaves the
queue at the front, and what is told enters it at the end if the observer is subscribed and has
room. -/
def Keeps (id : Nat) (m : Moment) (o : Observer) (s' : Service) : Prop :=
  ∃ o', s'.workers.bus.find? id = some o' ∧
    m.handed id ++ o'.queue =
      o.queue ++ (if o.subscribed && m.before.workers.bus.accepts o then m.told else []) ∧
    (o'.subscribed = true → o.subscribed = true) ∧
    (m.action ≠ .unsubscribe id → o'.subscribed = o.subscribed)

lemma keeps_of_same {id : Nat} {m : Moment} {o : Observer}
    (ho : s'.workers.bus.find? id = some o) (hh : m.handed id = []) (ht : m.told = []) :
    Keeps id m o s' :=
  ⟨o, ho, by simp [hh, ht], fun h => h, fun _ => rfl⟩

lemma keeps_step {id : Nat} {o : Observer} (hn : s.workers.bus.Numbered)
    (ho : s.workers.bus.find? id = some o) (h : s.step? a = some (es, s')) :
    Keeps id ⟨s, a, es⟩ o s' := by
  have hid : o.id = id := by simpa using List.find?_some ho
  rcases step?_cases h with ⟨hr, -, hrounds⟩ | ⟨-, rfl, -, -, hbus⟩
  · exact keeps_of_same (by rw [hrounds.bus, ho]) (handed_of_isRound id hr) (told_of_isRound hr)
  · have hafter := find?_busAfter hn ho a
    rw [← hbus] at hafter
    refine ⟨_, hafter, ?_⟩
    cases a with
    | tell =>
      cases hbox : s.outbox with
      | nil => simp [step?, hbox] at h
      | cons e rest =>
        simp only [observerAfter, hbox]
        refine ⟨?_, ?_, ?_⟩ <;> split <;> simp_all [Moment.handed, Moment.told]
    | unsubscribe j =>
      simp only [observerAfter, hid]
      split
      next hj =>
        subst hj
        exact ⟨by simp [Moment.handed, Moment.told], by simp, fun hne => absurd rfl hne⟩
      next => exact ⟨by simp [Moment.handed, Moment.told], fun h => h, fun _ => rfl⟩
    | take j =>
      rcases handed_take [] ho j with ⟨hhanded, ho'⟩ | ⟨e, rest, hhanded, hq, -, ho'⟩
      all_goals
        rw [hhanded, ho']
        exact ⟨by simp_all [Moment.told], fun h => h, fun _ => rfl⟩
    | done j =>
      simp only [observerAfter]
      split <;> exact ⟨by simp [Moment.handed, Moment.told], fun h => h, fun _ => rfl⟩
    | _ => exact ⟨by simp [observerAfter, Moment.handed, Moment.told], fun h => h, fun _ => rfl⟩

/-- The worker of an observer is at work on what was handed to it last, until it is through. -/
lemma handling_step {id : Nat} (hn : s.workers.bus.Numbered) (h : s.step? a = some (es, s'))
    (ha : a ≠ .done id) :
    ((s'.workers.bus.find? id).bind (·.handling)).toList =
      ((s.workers.bus.find? id).bind (·.handling)).toList ++ (⟨s, a, es⟩ : Moment).handed id := by
  rcases step?_cases h with ⟨hr, -, hrounds⟩ | ⟨-, rfl, -, -, hbus⟩
  · rw [hrounds.bus, handed_of_isRound id hr, List.append_nil]
  · cases ho : s.workers.bus.find? id with
    | none =>
      have hhanded : (⟨s, a, []⟩ : Moment).handed id = [] := by
        unfold Moment.handed
        split
        next j hj =>
          split
          next => simp [Bus.take?, ho]
          next => rfl
        next => rfl
      rw [hbus, find?_busAfter_of_none hn ho, hhanded]
      rfl
    | some o =>
      have hid : o.id = id := by simpa using List.find?_some ho
      rw [hbus, find?_busAfter hn ho]
      simp only [Option.bind_some]
      cases a with
      | tell =>
        simp only [observerAfter, Moment.handed, List.append_nil]
        split
        · rfl
        · split <;> rfl
      | unsubscribe j =>
        simp only [observerAfter, Moment.handed, List.append_nil]
        split <;> rfl
      | take j =>
        rcases handed_take [] ho j with ⟨hhanded, ho'⟩ | ⟨e, rest, hhanded, -, hidle, ho'⟩
        · rw [hhanded, ho', List.append_nil]
        · rw [hhanded, ho', hidle]
          rfl
      | done j =>
        have hj : o.id ≠ j := fun he => ha (by rw [← he, hid])
        simp [observerAfter, hj, Moment.handed]
      | _ => simp [observerAfter, Moment.handed]

/-- The observer has room in its queue whenever something is told, as long as it is subscribed. -/
def HasRoom (id : Nat) (past : List Moment) : Prop :=
  ∀ m ∈ past, m.told ≠ [] → ∀ o, m.before.workers.bus.find? id = some o → o.subscribed = true →
    m.before.workers.bus.accepts o = true

instance (id : Nat) (past : List Moment) : Decidable (HasRoom id past) :=
  inferInstanceAs (Decidable (∀ m ∈ past, m.told ≠ [] → ∀ o ∈ m.before.workers.bus.find? id,
    o.subscribed = true → m.before.workers.bus.accepts o = true))

/-- An observer whose queue never overflows has been handed, or has in its queue, a beginning of
what was told since it came, and all of it as long as it is subscribed. -/
lemma Run.handed_append_queue {id : Nat} {o₀ : Observer} (h : Run s₀ past s)
    (hn : s₀.workers.bus.Numbered) (h₀ : s₀.workers.bus.find? id = some o₀)
    (hq : o₀.queue = []) (hsub : o₀.subscribed = true) (hroom : HasRoom id past) :
    ∃ o, s.workers.bus.find? id = some o ∧
      history (Moment.handed id) past ++ o.queue <+: history Moment.told past ∧
      (o.subscribed = true →
        history (Moment.handed id) past ++ o.queue = history Moment.told past) ∧
      ((∀ m ∈ past, m.action ≠ .unsubscribe id) → o.subscribed = true) := by
  induction h with
  | start => exact ⟨o₀, h₀, by simp [hq], by simp [hq], fun _ => hsub⟩
  | @step past s s' a es run made ih =>
    obtain ⟨o, ho, hpre, hall, hstay⟩ := ih fun m hm => hroom m (by simp [hm])
    obtain ⟨o', ho', hqueue, hwas, hkeeps⟩ := keeps_step (run.numbered hn) ho made
    have hacc : (⟨s, a, es⟩ : Moment).told ≠ [] → o.subscribed = true →
        s.workers.bus.accepts o = true :=
      fun ht => hroom ⟨s, a, es⟩ (by simp) ht o ho
    refine ⟨o', ho', ?_, ?_, ?_⟩
    · rw [history_cons, history_cons, List.append_assoc, hqueue, ← List.append_assoc]
      by_cases hs : o.subscribed = true
      · rw [hall hs]
        split
        · exact List.prefix_refl _
        · simp
      · have hf : o.subscribed = false := by simpa using hs
        simp only [hf, Bool.false_and, Bool.false_eq_true, if_false, List.append_nil]
        exact hpre.trans (List.prefix_append _ _)
    · intro hs'
      have hs := hwas hs'
      rw [history_cons, history_cons, List.append_assoc, hqueue, ← List.append_assoc, hall hs]
      congr 1
      by_cases ht : (⟨s, a, es⟩ : Moment).told = []
      · simp [ht]
      · simp [hs, hacc ht hs]
    · intro hnone
      rw [hkeeps (hnone ⟨s, a, es⟩ (by simp))]
      exact hstay fun m hm => hnone m (by simp [hm])

end NodeWatch.Service
