import NodeWatch.Proofs.Bus.Exchange

/-!
What an observer has been handed, as its shares tell it.

They tell which events have been offered to it, which of them have found room in its queue, and how
many its worker has taken and got through with. What it has been handed is a beginning of what it
has accepted, and the rest waits in its queue.
-/

namespace NodeWatch

namespace Exchange

/-! ### What the shares tell -/

/-- How many events the worker has taken. -/
def taken (past : List Share) : Nat := past.countP (· matches .taken)

/-- How many of them it has got through with. -/
def finished (past : List Share) : Nat := past.countP (· matches .finished)

/-- The events that have been offered, in the order of time. -/
def offered : List Share → List Event
  | [] => []
  | .offered e :: past => offered past ++ [e]
  | _ :: past => offered past

/-- Those that have found room: fewer were waiting to be taken than the queue holds. -/
def accepted (capacity : Nat) : List Share → List Event
  | [] => []
  | .offered e :: past =>
    accepted capacity past ++
      if (accepted capacity past).length - taken past < capacity then [e] else []
  | _ :: past => accepted capacity past

/-- The event that a moment hands to an observer. -/
def Moment.handed (id : Nat) (m : Moment) : List Event :=
  match m.action with
  | .take j => if j = id then ((m.before.bus.take? id).map (·.1)).toList else []
  | _ => []

/-- The event with which its worker gets through. -/
def Moment.handled (id : Nat) (m : Moment) : List Event :=
  match m.action with
  | .finish j => if j = id then ((m.before.bus.find? id).bind (·.handling)).toList else []
  | _ => []

/-- What an observer has been handed, in the order of time. -/
def handed (id : Nat) (past : List Moment) : List Event := past.reverse.flatMap (Moment.handed id)

def handled (id : Nat) (past : List Moment) : List Event := past.reverse.flatMap (Moment.handled id)

/-- The observer has been unsubscribed. -/
def gone (past : List Share) : Bool := past.any (· matches .gone)

variable {x x' : Exchange} {a : Action} {past later : List Moment} {id capacity : Nat}
  {o : Observer} {share : Share} {ps : List Share}

@[simp] lemma accepted_gone : accepted capacity (.gone :: ps) = accepted capacity ps := rfl
@[simp] lemma accepted_taken : accepted capacity (.taken :: ps) = accepted capacity ps := rfl
@[simp] lemma accepted_finished : accepted capacity (.finished :: ps) = accepted capacity ps := rfl

/-! ### One observer -/

/-- An observer agrees with its shares. -/
structure Tally (capacity : Nat) (ps : List Share) (o : Observer) : Prop where
  le_taken : finished ps ≤ taken ps
  le_accepted : taken ps ≤ (accepted capacity ps).length
  queue : o.queue = (accepted capacity ps).drop (taken ps)
  handling : o.handling.toList = ((accepted capacity ps).take (taken ps)).drop (finished ps)
  subscribed : o.subscribed = !gone ps

lemma tally_new (capacity id : Nat) (name : String) :
    Tally capacity [] { id, name } :=
  ⟨Nat.le_refl _, Nat.le_refl _, rfl, rfl, rfl⟩

/-- The queue holds what is accepted and not taken. -/
lemma Tally.length_queue (h : Tally capacity ps o) :
    o.queue.length = (accepted capacity ps).length - taken ps := by
  rw [h.queue, List.length_drop]

/-- The event at the front of a queue is the next to be handed. -/
lemma Tally.take_succ (h : Tally capacity ps o) {e : Event} {rest : List Event}
    (hq : o.queue = e :: rest) :
    (accepted capacity ps).take (taken ps + 1) = (accepted capacity ps).take (taken ps) ++ [e] ∧
      (accepted capacity ps).drop (taken ps + 1) = rest := by
  have hdrop : (accepted capacity ps).drop (taken ps) = e :: rest := h.queue.symm.trans hq
  refine ⟨?_, ?_⟩
  · rw [List.take_add, hdrop]
    rfl
  · rw [← List.drop_drop, hdrop]
    rfl

/-- An idle worker has got through with all that it has taken. -/
lemma Tally.finished_eq (h : Tally capacity ps o) (hidle : o.handling = none) :
    finished ps = taken ps := by
  have hnone : ((accepted capacity ps).take (taken ps)).drop (finished ps) = [] := by
    rw [← h.handling, hidle]
    rfl
  have hlen := List.drop_eq_nil_iff.mp hnone
  rw [List.length_take, Nat.min_eq_left h.le_accepted] at hlen
  exact Nat.le_antisymm h.le_taken hlen

/-- One that is at work has one event left. -/
lemma Tally.taken_eq (h : Tally capacity ps o) {e : Event} (hbusy : o.handling = some e) :
    taken ps = finished ps + 1 ∧
      (accepted capacity ps).take (taken ps) =
        (accepted capacity ps).take (finished ps) ++ [e] := by
  have hone : ((accepted capacity ps).take (taken ps)).drop (finished ps) = [e] := by
    rw [← h.handling, hbusy]
    rfl
  have hlen := congrArg List.length hone
  rw [List.length_drop, List.length_take, Nat.min_eq_left h.le_accepted, List.length_singleton]
    at hlen
  refine ⟨by omega, ?_⟩
  have happend := List.take_append_drop (finished ps) ((accepted capacity ps).take (taken ps))
  rw [hone, List.take_take, Nat.min_eq_left h.le_taken] at happend
  exact happend.symm

/-- An event that is offered is queued if there is room, and nothing else changes. -/
lemma Tally.after_offered (h : Tally capacity ps o) (e : Event) :
    Tally capacity (.offered e :: ps) (Exchange.after capacity o (.offered e)) := by
  have haccepted : accepted capacity (.offered e :: ps) = accepted capacity ps ++
      if o.queue.length < capacity then [e] else [] := by
    rw [accepted, h.length_queue]
  have htaken : taken (.offered e :: ps) = taken ps := by simp [taken]
  have hfinished : finished (.offered e :: ps) = finished ps := by simp [finished]
  have hgone : gone (.offered e :: ps) = gone ps := by simp [gone]
  refine ⟨?_, ?_, ?_, ?_, ?_⟩
  · rw [htaken, hfinished]
    exact h.le_taken
  · rw [htaken, haccepted, List.length_append]
    exact Nat.le_add_right_of_le h.le_accepted
  · rw [haccepted, htaken, List.drop_append_of_le_length h.le_accepted, ← h.queue]
    simp only [Exchange.after]
    split
    · rfl
    · simp
  · rw [haccepted, htaken, hfinished, List.take_append_of_le_length h.le_accepted, ← h.handling]
    simp only [Exchange.after]
    split <;> rfl
  · rw [hgone, ← h.subscribed]
    simp only [Exchange.after]
    split <;> rfl

/-- An observer that leaves keeps what it has. -/
lemma Tally.after_gone (h : Tally capacity ps o) :
    Tally capacity (.gone :: ps) (Exchange.after capacity o .gone) := by
  refine ⟨?_, ?_, ?_, ?_, ?_⟩
  · simpa [taken, finished] using h.le_taken
  · simpa [taken, accepted] using h.le_accepted
  · simpa [taken, accepted, Exchange.after] using h.queue
  · simpa [taken, finished, accepted, Exchange.after] using h.handling
  · simp [gone, Exchange.after]

/-- An idle worker takes the event at the front of the queue. -/
lemma Tally.after_taken (h : Tally capacity ps o) (hpossible : Possible o .taken) :
    Tally capacity (.taken :: ps) (Exchange.after capacity o .taken) := by
  obtain ⟨hidle, hne⟩ := hpossible
  obtain ⟨e, rest, hq⟩ := List.exists_cons_of_ne_nil hne
  obtain ⟨htake, hdrop⟩ := h.take_succ hq
  have hfinished := h.finished_eq hidle
  have hlen := h.length_queue
  rw [hq, List.length_cons] at hlen
  have htaken' : taken (.taken :: ps) = taken ps + 1 := by simp [taken]
  have hfinished' : finished (.taken :: ps) = taken ps := by simpa [finished] using hfinished
  refine ⟨?_, ?_, ?_, ?_, ?_⟩
  · rw [htaken', hfinished']
    exact Nat.le_succ _
  · rw [htaken', accepted_taken]
    omega
  · rw [htaken', accepted_taken, hdrop]
    simp [Exchange.after, hq]
  · have hlength : ((accepted capacity ps).take (taken ps)).length = taken ps := by
      rw [List.length_take, Nat.min_eq_left h.le_accepted]
    rw [htaken', hfinished', accepted_taken, htake, List.drop_append_of_le_length (by omega),
      List.drop_of_length_le (by omega)]
    simp [Exchange.after, hq]
  · simpa [gone, Exchange.after] using h.subscribed

/-- A worker that is at work gets through with its event. -/
lemma Tally.after_finished (h : Tally capacity ps o) (hpossible : Possible o .finished) :
    Tally capacity (.finished :: ps) (Exchange.after capacity o .finished) := by
  obtain ⟨e, hbusy⟩ := Option.ne_none_iff_exists'.mp hpossible
  obtain ⟨heq, htake⟩ := h.taken_eq hbusy
  have hfinished' : finished (.finished :: ps) = taken ps := by simpa [finished] using heq.symm
  have htaken' : taken (.finished :: ps) = taken ps := by simp [taken]
  refine ⟨Nat.le_of_eq (hfinished'.trans htaken'.symm), ?_, ?_, ?_, ?_⟩
  · rw [htaken', accepted_finished]
    exact h.le_accepted
  · rw [htaken', accepted_finished]
    exact h.queue
  · rw [htaken', hfinished', accepted_finished, List.drop_of_length_le (List.length_take_le _ _)]
    rfl
  · simpa [gone, Exchange.after] using h.subscribed

/-- **An observer agrees with its shares after one more.** -/
lemma Tally.after (h : Tally capacity ps o) (hpossible : Possible o share) :
    Tally capacity (share :: ps) (Exchange.after capacity o share) := by
  cases share with
  | offered e => exact h.after_offered e
  | gone => exact h.after_gone
  | taken => exact h.after_taken hpossible
  | finished => exact h.after_finished hpossible

/-- What a share hands to an observer. -/
def Share.hands (o : Observer) : Share → List Event
  | .taken => o.queue.head?.toList
  | _ => []

/-- What it is through with. -/
def Share.settles (o : Observer) : Share → List Event
  | .finished => o.handling.toList
  | _ => []

/-- What has been handed grows by what a share hands. -/
lemma Tally.take_taken (h : Tally capacity ps o) (hpossible : Possible o share) :
    (accepted capacity (share :: ps)).take (taken (share :: ps)) =
      (accepted capacity ps).take (taken ps) ++ share.hands o := by
  cases share with
  | offered e =>
    have htaken : taken (.offered e :: ps) = taken ps := by simp [taken]
    rw [accepted, htaken, List.take_append_of_le_length h.le_accepted]
    exact (List.append_nil _).symm
  | gone => simp [taken, Share.hands]
  | taken =>
    obtain ⟨e, rest, hq⟩ := List.exists_cons_of_ne_nil hpossible.2
    have htaken : taken (.taken :: ps) = taken ps + 1 := by simp [taken]
    rw [accepted_taken, htaken, (h.take_succ hq).1, Share.hands, hq]
    rfl
  | finished => simp [taken, Share.hands]

lemma Tally.take_finished (h : Tally capacity ps o) (hpossible : Possible o share) :
    (accepted capacity (share :: ps)).take (finished (share :: ps)) =
      (accepted capacity ps).take (finished ps) ++ share.settles o := by
  cases share with
  | offered e =>
    have hfinished : finished (.offered e :: ps) = finished ps := by simp [finished]
    have hle := Nat.le_trans h.le_taken h.le_accepted
    rw [accepted, hfinished, List.take_append_of_le_length hle]
    exact (List.append_nil _).symm
  | gone => simp [finished, Share.settles]
  | taken => simp [finished, Share.settles]
  | finished =>
    obtain ⟨e, hbusy⟩ := Option.ne_none_iff_exists'.mp hpossible
    obtain ⟨heq, htake⟩ := h.taken_eq hbusy
    have hfinished : finished (.finished :: ps) = taken ps := by simpa [finished] using heq.symm
    rw [accepted_finished, hfinished, htake, Share.settles, hbusy]
    rfl

/-! ### Along a run -/

lemma shares_cons (id : Nat) (m : Moment) (past : List Moment) :
    shares id (m :: past) = (m.share? id).toList ++ shares id past := by
  rw [shares, List.filterMap_cons]
  cases m.share? id <;> rfl

@[simp] lemma handed_cons (id : Nat) (m : Moment) (past : List Moment) :
    handed id (m :: past) = handed id past ++ m.handed id := by
  simp [handed]

@[simp] lemma handled_cons (id : Nat) (m : Moment) (past : List Moment) :
    handled id (m :: past) = handled id past ++ m.handled id := by
  simp [handled]

/-- What a step hands to an observer is what its share of it does. -/
lemma Steps.handed (made : Steps x a x') (ho : x.bus.find? id = some o) :
    (⟨x, a⟩ : Moment).handed id =
      ((⟨x, a⟩ : Moment).share? id).elim [] (Share.hands o) := by
  cases made with
  | @offer e j n rest posting =>
    rw [Moment.handed, Moment.share?, posting]
    by_cases hj : j = id <;> simp [hj, Share.hands]
  | @unsubscribe j idle =>
    by_cases hj : j = id <;> simp [Moment.handed, Moment.share?, hj, Share.hands]
  | @take j e bus found =>
    obtain ⟨k, rest, hk, -, hqueue, -⟩ := Bus.take?_eq_some found
    by_cases hj : j = id
    · subst hj
      obtain rfl := Option.some.inj (ho.symm.trans hk)
      simp [Moment.handed, Moment.share?, found, Share.hands, hqueue]
    · simp [Moment.handed, Moment.share?, hj]
  | @finish j k found busy =>
    by_cases hj : j = id <;> simp [Moment.handed, Moment.share?, hj, Share.hands]
  | _ => simp [Moment.handed, Moment.share?]

lemma Steps.handled (made : Steps x a x') (ho : x.bus.find? id = some o) :
    (⟨x, a⟩ : Moment).handled id =
      ((⟨x, a⟩ : Moment).share? id).elim [] (Share.settles o) := by
  cases made with
  | @offer e j n rest posting =>
    rw [Moment.handled, Moment.share?, posting]
    by_cases hj : j = id <;> simp [hj, Share.settles]
  | @unsubscribe j idle =>
    by_cases hj : j = id <;> simp [Moment.handled, Moment.share?, hj, Share.settles]
  | @take j e bus found =>
    by_cases hj : j = id <;> simp [Moment.handled, Moment.share?, hj, Share.settles]
  | @finish j k found busy =>
    by_cases hj : j = id
    · subst hj
      simp [Moment.handled, Moment.share?, ho, Share.settles]
    · simp [Moment.handled, Moment.share?, hj]
  | _ => simp [Moment.handled, Moment.share?]

/-- An observer agrees with its shares, and so does what it has been handed. -/
structure Account (capacity id : Nat) (past : List Moment) (o : Observer) : Prop where
  tally : Tally capacity (shares id past) o
  handed : handed id past =
    (accepted capacity (shares id past)).take (taken (shares id past))
  handled : handled id past =
    (accepted capacity (shares id past)).take (finished (shares id past))

lemma Steps.account (made : Steps x a x') (hx : Orderly x.bus) (ho : x.bus.find? id = some o)
    (h : Account x.bus.capacity id past o) :
    ∃ o', x'.bus.find? id = some o' ∧ Account x.bus.capacity id (⟨x, a⟩ :: past) o' := by
  obtain ⟨hpossible, hafter⟩ := made.find? hx ho
  refine ⟨_, hafter, ?_⟩
  have hhanded := made.handed ho
  have hhandled := made.handled ho
  cases hshare : (⟨x, a⟩ : Moment).share? id with
  | none =>
    rw [hshare] at hhanded hhandled
    have hshares : shares id (⟨x, a⟩ :: past) = shares id past := by rw [shares_cons, hshare]; rfl
    refine ⟨?_, ?_, ?_⟩
    · rw [hshares]
      exact h.tally
    · rw [hshares, handed_cons, hhanded, h.handed]
      exact List.append_nil _
    · rw [hshares, handled_cons, hhandled, h.handled]
      exact List.append_nil _
  | some share =>
    rw [hshare] at hhanded hhandled
    have hp := hpossible share hshare
    have hshares : shares id (⟨x, a⟩ :: past) = share :: shares id past := by
      rw [shares_cons, hshare]
      rfl
    refine ⟨?_, ?_, ?_⟩
    · rw [hshares]
      exact h.tally.after hp
    · rw [hshares, handed_cons, hhanded, h.handed, h.tally.take_taken hp]
      rfl
    · rw [hshares, handled_cons, hhandled, h.handled, h.tally.take_finished hp]
      rfl

/-- **What a run tells of an observer that has come at its beginning.** -/
lemma Run.account {x₁ : Exchange} {name : String} (h : Run x₁ later x) (h₁ : Orderly x₁.bus)
    (hnew : x₁.bus.find? id = some { id, name }) :
    ∃ o, x.bus.find? id = some o ∧ Account x₁.bus.capacity id later o := by
  induction h with
  | start => exact ⟨_, hnew, tally_new _ _ _, rfl, rfl⟩
  | step run made ih =>
    obtain ⟨o, ho, haccount⟩ := ih
    rw [← run.capacity] at haccount ⊢
    exact (steps_of_step? made).account (run.orderly h₁) ho haccount

end Exchange

end NodeWatch
