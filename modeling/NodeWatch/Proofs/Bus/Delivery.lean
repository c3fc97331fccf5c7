import NodeWatch.Proofs.Bus.Account

/-!
What a bus delivers to an observer.

Since an observer came, it has been offered what was published while it was subscribed, and its
account tells the rest.
-/

namespace NodeWatch

namespace Exchange

/-! ### What is offered, and who accepts it -/

/-- The events that have been published to an observer before it was unsubscribed. -/
def published (id : Nat) : List Moment → List Event
  | [] => []
  | m :: past =>
    published id past ++
      match m.action with
      | .publish e => if gone (shares id past) then [] else [e]
      | _ => []

/-- The event that is being published, if it is still to be offered to an observer. -/
def pending (id : Nat) (x : Exchange) : List Event :=
  match x.posting with
  | some p => if id ∈ p.rest then [p.event] else []
  | none => []

/-- The observer that accepts an event in a moment. -/
def Moment.acceptor? (m : Moment) : Option Nat :=
  match m.action, m.before.posting with
  | .offer, some ⟨e, j :: _, _⟩ => if (m.before.bus.offer j e).1 then some j else none
  | _, _ => none

/-- Those that have accepted the event that is being published. -/
def acceptors : List Moment → List Nat
  | [] => []
  | m :: past =>
    match m.action with
    | .publish _ => []
    | _ => acceptors past ++ m.acceptor?.toList

variable {x₀ x x' : Exchange} {a : Action} {past later earlier : List Moment} {id capacity : Nat}
  {o : Observer} {ps : List Share}

/-- What is being published is offered once to everybody, and those that have accepted it are
counted. -/
structure Counted (past : List Moment) (x : Exchange) : Prop where
  rest : ∀ p, x.posting = some p → (acceptors past ++ p.rest).Nodup
  delivered : ∀ p, x.posting = some p → p.delivered = (acceptors past).length

lemma Steps.counted (made : Steps x a x') (hx : Orderly x.bus) (h : Counted past x) :
    Counted (⟨x, a⟩ :: past) x' := by
  cases made with
  | @publish e idle =>
    refine ⟨fun p hp => ?_, fun p hp => ?_⟩
    · rw [← Option.some.inj hp]
      exact List.Nodup.sublist (List.filter_sublist.map _) hx.nodup
    · rw [← Option.some.inj hp]
      rfl
  | @offer e j n rest posting =>
    have hnodup := h.rest _ posting
    have hlength := h.delivered _ posting
    have hacceptors : acceptors (⟨x, .offer⟩ :: past) =
        acceptors past ++ (if (x.bus.offer j e).1 then some j else none).toList := by
      rw [acceptors, Moment.acceptor?, posting]
    refine ⟨fun p hp => ?_, fun p hp => ?_⟩
    · rw [hacceptors, ← Option.some.inj hp]
      split
      · simpa using hnodup
      · refine List.Nodup.sublist ?_ hnodup
        simp
    · rw [hacceptors, ← Option.some.inj hp]
      split
      · simpa using hlength
      · simpa using hlength
  | conclude posting => exact ⟨fun p hp => by simp at hp, fun p hp => by simp at hp⟩
  | subscribe idle => exact ⟨fun p hp => by simp at hp, fun p hp => by simp at hp⟩
  | unsubscribe idle => exact ⟨fun p hp => by simp at hp, fun p hp => by simp at hp⟩
  | @take j e bus found =>
    have hacceptors : acceptors (⟨x, .take j⟩ :: past) = acceptors past := List.append_nil _
    exact ⟨fun p hp => by rw [hacceptors]; exact h.rest p hp,
      fun p hp => by rw [hacceptors]; exact h.delivered p hp⟩
  | @finish j k found busy =>
    have hacceptors : acceptors (⟨x, .finish j⟩ :: past) = acceptors past := List.append_nil _
    exact ⟨fun p hp => by rw [hacceptors]; exact h.rest p hp,
      fun p hp => by rw [hacceptors]; exact h.delivered p hp⟩

/-- **What is returned is the number of those that have accepted.** -/
lemma Run.counted (h : Run x₀ past x) (h₀ : Orderly x₀.bus) (hidle : x₀.posting = none) :
    Counted past x := by
  induction h with
  | start => exact ⟨fun p hp => by simp [hidle] at hp, fun p hp => by simp [hidle] at hp⟩
  | step run made ih => exact (steps_of_step? made).counted (run.orderly h₀) ih

/-- Only a publish publishes. -/
lemma published_of_ne {m : Moment} (h : ∀ e, m.action ≠ .publish e) :
    published id (m :: past) = published id past := by
  rw [published]
  split
  next e he => exact absurd he (h e)
  next => exact List.append_nil _

/-- Only an offer offers. -/
lemma offered_of_ne {m : Moment} (h : ∀ e, m.share? id ≠ some (.offered e)) :
    offered (shares id (m :: past)) = offered (shares id past) := by
  rw [shares_cons]
  cases hshare : m.share? id with
  | none => rfl
  | some share =>
    cases share with
    | offered e => exact absurd hshare (h e)
    | _ => rfl

/-- What is offered to an observer is what has been published to it, but for the event that is being
published. -/
lemma Steps.offered_append_pending (made : Steps x a x') (hx : Orderly x.bus)
    (ho : x.bus.find? id = some o) (htally : Tally capacity (shares id past) o)
    (hnodup : ∀ p, x.posting = some p → p.rest.Nodup)
    (h : offered (shares id past) ++ pending id x = published id past) :
    offered (shares id (⟨x, a⟩ :: past)) ++ pending id x' = published id (⟨x, a⟩ :: past) := by
  cases made with
  | @publish e idle =>
    have hpending : pending id x = [] := by rw [pending, idle]
    have hsub := mem_subscribed_iff hx ho
    rw [htally.subscribed] at hsub
    rw [hpending, List.append_nil] at h
    rw [offered_of_ne (by simp [Moment.share?]), h, published, pending]
    simp only [hsub]
    cases gone (shares id past) <;> simp
  | @offer e j n rest posting =>
    rw [published_of_ne (by simp), ← h, pending, pending, posting]
    by_cases hj : j = id
    · subst hj
      have hnot : j ∉ rest := (List.nodup_cons.mp (hnodup _ posting)).1
      have hshare : (⟨x, .offer⟩ : Moment).share? j = some (.offered e) := by
        rw [Moment.share?, posting]
        exact if_pos rfl
      rw [shares_cons, hshare]
      simp [offered, hnot]
    · have hshare : (⟨x, .offer⟩ : Moment).share? id = none := by
        rw [Moment.share?, posting]
        exact if_neg hj
      rw [offered_of_ne (by simp [hshare])]
      simp [Ne.symm hj]
  | conclude posting =>
    rw [offered_of_ne (by simp [Moment.share?]), published_of_ne (by simp), ← h, pending, pending,
      posting]
    simp
  | subscribe idle | unsubscribe idle =>
    rw [offered_of_ne (by simp [Moment.share?]), published_of_ne (by simp), ← h, pending, pending,
      idle]
  | take found | finish found busy =>
    rw [offered_of_ne (by simp [Moment.share?]), published_of_ne (by simp), ← h]
    rfl

/-- What is accepted has been offered, in the same order. -/
lemma accepted_sublist (capacity : Nat) (ps : List Share) :
    (accepted capacity ps).Sublist (offered ps) := by
  induction ps with
  | nil => exact .refl _
  | cons share ps ih =>
    cases share with
    | offered e =>
      rw [accepted, offered]
      refine ih.append ?_
      split
      · exact .refl _
      · exact List.nil_sublist _
    | _ => exact ih

/-- **Up to the one that is being published, an observer is offered what is published while it is
subscribed.** -/
lemma Run.offered_append_pending {x₁ : Exchange} {name : String} (h : Run x₁ later x)
    (h₁ : Orderly x₁.bus) (hidle : x₁.posting = none)
    (hnew : x₁.bus.find? id = some { id, name }) :
    offered (shares id later) ++ pending id x = published id later := by
  induction h with
  | start => simp [shares, offered, pending, published, hidle]
  | step run made ih =>
    obtain ⟨o, ho, haccount⟩ := run.account h₁ hnew
    refine (steps_of_step? made).offered_append_pending (run.orderly h₁) ho haccount.tally ?_ ih
    exact fun p hp => (List.nodup_append.mp ((run.counted h₁ hidle).rest p hp)).2.1

/-! ### What is still to come -/

/-- Steps of one worker. -/
def Works (id : Nat) (later : List Moment) : Prop :=
  ∀ m ∈ later, m.action = .take id ∨ m.action = .finish id

lemma Works.append {more : List Moment} (h : Works id later) (h' : Works id more) :
    Works id (more ++ later) := fun m hm =>
  (List.mem_append.mp hm).elim (h' m) (h m)

/-- No worker has any say in what is accepted. -/
lemma Works.accepted_eq (h : Works id later) (capacity : Nat) (past : List Moment) :
    accepted capacity (shares id (later ++ past)) = accepted capacity (shares id past) := by
  induction later with
  | nil => rfl
  | cons m later ih =>
    have hlater := ih fun k hk => h k (List.mem_cons_of_mem m hk)
    rw [List.cons_append, shares_cons]
    rcases h m List.mem_cons_self with hm | hm
    · simpa [Moment.share?, hm] using hlater
    · simpa [Moment.share?, hm] using hlater

/-- An observer whose worker is at work gets through with its event. -/
lemma exists_idle (hx : Orderly x.bus) (ho : x.bus.find? id = some o) :
    ∃ more x' o', Run x more x' ∧ Works id more ∧ x'.bus.find? id = some o' ∧
      o'.handling = none ∧ o'.queue = o.queue := by
  by_cases hbusy : o.handling = none
  · exact ⟨[], x, o, .start, by simp [Works], ho, hbusy, rfl⟩
  · have made : x.step? (.finish id) = some ⟨x.bus.finish id, x.posting⟩ := by
      obtain ⟨e, he⟩ := Option.ne_none_iff_exists'.mp hbusy
      obtain ⟨i, name, subscribed, queue, handling⟩ := o
      obtain rfl : handling = some e := he
      simp only [step?, ho]
    have hafter := ((steps_of_step? made).find? hx ho).2
    refine ⟨_, _, _, Run.start.step made, by simp [Works], hafter, ?_, ?_⟩
    · simp [Moment.share?, after]
    · simp [Moment.share?, after]

/-- **A worker that gets through with its events is handed all that is queued.** -/
lemma exists_empty (hx : Orderly x.bus) (ho : x.bus.find? id = some o) :
    ∃ more x' o', Run x more x' ∧ Works id more ∧ x'.bus.find? id = some o' ∧
      o'.handling = none ∧ o'.queue = [] := by
  generalize hq : o.queue = queue
  induction queue generalizing x o with
  | nil =>
    obtain ⟨more, x', o', hrun, hworks, ho', hidle, hqueue⟩ := exists_idle hx ho
    exact ⟨more, x', o', hrun, hworks, ho', hidle, hqueue.trans hq⟩
  | cons e rest ih =>
    obtain ⟨more₁, x₁, o₁, hrun₁, hworks₁, ho₁, hidle₁, hqueue₁⟩ := exists_idle hx ho
    have hx₁ := hrun₁.orderly hx
    have hfront : o₁.queue = e :: rest := hqueue₁.trans hq
    obtain ⟨x₂, made⟩ : ∃ x₂, x₁.step? (.take id) = some x₂ := by
      obtain ⟨i, name, subscribed, queue, handling⟩ := o₁
      obtain rfl : handling = none := hidle₁
      obtain rfl : queue = e :: rest := hfront
      simp only [step?, Bus.take?, ho₁]
      exact ⟨_, rfl⟩
    have hafter := ((steps_of_step? made).find? hx₁ ho₁).2
    have hx₂ := (steps_of_step? made).orderly hx₁
    obtain ⟨more, x', o', hrun, hworks, ho', hidle, hempty⟩ :=
      ih hx₂ hafter (by simp [Moment.share?, after, hfront])
    have htake : Works id [⟨x₁, .take id⟩] := by simp [Works]
    exact ⟨_, x', o', (hrun₁.step made).append hrun, (hworks₁.append htake).append hworks, ho',
      hidle, hempty⟩

/-! ### Since an observer came -/

/-- An observer that comes has the next number, nothing queued, and an idle worker. -/
lemma find?_of_subscribe {name : String} (hx : Orderly x.bus)
    (made : x.step? (.subscribe name) = some x') :
    x'.posting = none ∧ x'.bus.find? x.bus.nextId = some { id := x.bus.nextId, name } := by
  cases steps_of_step? made with
  | subscribe idle => exact ⟨rfl, by rw [hx.numbered.find?_subscribe, if_pos rfl]⟩

/-- `later` is what has happened since an observer came to a bus whose queues hold so many
events. -/
inductive Since (capacity id : Nat) (later : List Moment) (x : Exchange) : Prop where
  | come {x₁ : Exchange} {name : String} (run : Run x₁ later x) (orderly : Orderly x₁.bus)
    (idle : x₁.posting = none) (new : x₁.bus.find? id = some { id, name })
    (size : x₁.bus.capacity = capacity)

lemma Run.since {m : Moment} {name : String} {n : Nat}
    (h : Run { bus := .ofCapacity n } (later ++ m :: earlier) x)
    (hcome : m.action = .subscribe name) : Since (max 1 n) m.before.bus.nextId later x := by
  obtain ⟨x₁, hpast, made, hlater⟩ := h.split
  rw [hcome] at made
  have hm : Orderly m.before.bus := hpast.orderly (orderly_ofCapacity n)
  obtain ⟨hidle, hnew⟩ := find?_of_subscribe hm made
  refine .come hlater ((steps_of_step? made).orderly hm) hidle hnew ?_
  rw [(steps_of_step? made).capacity, hpast.capacity]
  rfl

namespace Since

lemma orderly (h : Since capacity id later x) : Orderly x.bus := by
  obtain ⟨run, h₁, -, -, -⟩ := h
  exact run.orderly h₁

lemma size (h : Since capacity id later x) : x.bus.capacity = capacity := by
  obtain ⟨run, -, -, -, hsize⟩ := h
  exact run.capacity.trans hsize

/-- The observer agrees with its shares. -/
lemma account (h : Since capacity id later x) :
    ∃ o, x.bus.find? id = some o ∧ Account capacity id later o := by
  obtain ⟨run, h₁, -, hnew, rfl⟩ := h
  exact run.account h₁ hnew

lemma offered_append_pending (h : Since capacity id later x) :
    offered (shares id later) ++ pending id x = published id later := by
  obtain ⟨run, h₁, hidle, hnew, -⟩ := h
  exact run.offered_append_pending h₁ hidle hnew

/-- What is accepted has been published, in the same order. -/
lemma accepted_sublist (h : Since capacity id later x) :
    (accepted capacity (shares id later)).Sublist (published id later) := by
  rw [← h.offered_append_pending]
  exact (Exchange.accepted_sublist _ _).trans (List.sublist_append_left _ _)

/-- It has come before any moment since. -/
lemma before {l₂ l₁ : List Moment} {k : Moment} (h : Since capacity id (l₂ ++ k :: l₁) x) :
    Since capacity id l₁ k.before ∧ ∃ x', k.before.step? k.action = some x' := by
  obtain ⟨run, h₁, hidle, hnew, hsize⟩ := h
  obtain ⟨x', hl₁, made, -⟩ := run.split
  exact ⟨.come hl₁ h₁ hidle hnew hsize, x', made⟩

lemma append {more : List Moment} (h : Since capacity id later x) (hmore : Run x more x') :
    Since capacity id (more ++ later) x' := by
  obtain ⟨run, h₁, hidle, hnew, hsize⟩ := h
  exact .come (run.append hmore) h₁ hidle hnew hsize

end Since

/-! ### Delivery -/

/-- What has been handed over is a beginning of what is accepted, and the rest is queued. -/
lemma Account.handed_append_queue (h : Account capacity id past o) :
    Exchange.handed id past ++ o.queue = accepted capacity (shares id past) := by
  rw [h.handed, h.tally.queue, List.take_append_drop]

/-- Of what has been handed over the worker is through with all but what it is at. -/
lemma Account.handled_append_handling (h : Account capacity id past o) :
    Exchange.handled id past ++ o.handling.toList = Exchange.handed id past := by
  rw [h.handled, h.handed, h.tally.handling]
  have happend := List.take_append_drop (finished (shares id past))
    ((accepted capacity (shares id past)).take (taken (shares id past)))
  rwa [List.take_take, Nat.min_eq_left h.tally.le_taken] at happend

/-- Observers with the same shares have got the same, whoever they are. -/
lemma Account.congr {past' : List Moment} {id' : Nat} {o' : Observer}
    (h : Account capacity id past o) (h' : Account capacity id' past' o')
    (hshares : shares id' past' = shares id past) :
    Exchange.handed id' past' = Exchange.handed id past ∧
      Exchange.handled id' past' = Exchange.handled id past ∧
      o'.queue = o.queue ∧ o'.handling = o.handling := by
  have hhandling : o'.handling.toList = o.handling.toList := by
    rw [h'.tally.handling, h.tally.handling, hshares]
  refine ⟨?_, ?_, ?_, ?_⟩
  · rw [h'.handed, h.handed, hshares]
  · rw [h'.handled, h.handled, hshares]
  · rw [h'.tally.queue, h.tally.queue, hshares]
  · cases hb' : o'.handling <;> cases hb : o.handling <;> simp_all

/-- What becomes of an offer: the event is queued just when there is room. -/
lemma Steps.accepted_offer {e : Event} (made : Steps x a x') (ho : x.bus.find? id = some o)
    (h : Tally x.bus.capacity ps o) (hshare : (⟨x, a⟩ : Moment).share? id = some (.offered e)) :
    accepted x.bus.capacity (.offered e :: ps) = accepted x.bus.capacity ps ++
        (if o.queue.length < x.bus.capacity then [e] else []) ∧
      ((⟨x, a⟩ : Moment).acceptor? = some id ↔ o.queue.length < x.bus.capacity) := by
  refine ⟨by rw [accepted, h.length_queue], ?_⟩
  cases made with
  | @offer e' j n rest posting =>
    rw [Moment.share?, posting] at hshare
    simp only [Option.ite_none_right_eq_some, Option.some.injEq] at hshare
    obtain ⟨rfl, -⟩ := hshare
    rw [Moment.acceptor?, posting]
    simp only [Bus.offer, ho, Bus.accepts, decide_eq_true_eq]
    split <;> simp_all
  | _ => simp [Moment.share?] at hshare

/-- An event that was offered to an observer since it came was missed just when its queue was
full. -/
lemma Since.accepted_offer {l₂ l₁ : List Moment} {k : Moment} {e : Event}
    (h : Since capacity id (l₂ ++ k :: l₁) x) (hshare : k.share? id = some (.offered e)) :
    ∃ oₖ, k.before.bus.find? id = some oₖ ∧
      accepted capacity (shares id (k :: l₁)) = accepted capacity (shares id l₁) ++
        (if oₖ.queue.length < capacity then [e] else []) ∧
      (k.acceptor? = some id ↔ oₖ.queue.length < capacity) := by
  obtain ⟨hk, x', made⟩ := h.before
  obtain ⟨oₖ, hoₖ, haccount⟩ := hk.account
  obtain rfl := hk.size
  have hoffer := (steps_of_step? made).accepted_offer hoₖ haccount.tally hshare
  refine ⟨oₖ, hoₖ, ?_, hoffer.2⟩
  rw [shares_cons, hshare]
  exact hoffer.1

/-- A worker that goes on by itself gets through with all that its observer has accepted. -/
lemma Since.exists_handled (h : Since capacity id later x) (ho : x.bus.find? id = some o) :
    ∃ more x' o', Run x more x' ∧ Works id more ∧ x'.bus.find? id = some o' ∧ o'.queue = [] ∧
      handled id (more ++ later) = accepted capacity (shares id later) := by
  obtain ⟨more, x', o', hmore, hworks, ho', hidle, hempty⟩ := exists_empty h.orderly ho
  obtain ⟨o₂, ho₂, h'⟩ := (h.append hmore).account
  obtain rfl := Option.some.inj (ho'.symm.trans ho₂)
  refine ⟨more, x', o', hmore, hworks, ho', hempty, ?_⟩
  calc handled id (more ++ later)
      = handled id (more ++ later) ++ o'.handling.toList ++ o'.queue := by simp [hidle, hempty]
    _ = accepted capacity (shares id (more ++ later)) := by
        rw [h'.handled_append_handling, h'.handed_append_queue]
    _ = accepted capacity (shares id later) := hworks.accepted_eq capacity later

/-- Publishing never waits for an observer. -/
lemma exists_step_of_posting {p : Posting} (h : x.posting = some p) :
    (∃ x', x.step? .offer = some x') ∨ ∃ x', x.step? .conclude = some x' := by
  obtain ⟨e, rest, n⟩ := p
  cases rest with
  | nil => exact .inr ⟨_, by simp only [step?, h]; rfl⟩
  | cons j rest => exact .inl ⟨_, by simp only [step?, h]; rfl⟩

variable {m : Moment} {name : String} {n : Nat}

/-- **What a bus delivers to an observer.** An observer comes in the moment `m`, and `later` is what
has happened since. Events are offered to it as they are published while it is subscribed, and one
is missed just when the queue is full. What is accepted is handed over in that order, once each, and
the rest waits in the queue; its worker can always be handed the rest, subscribed or not. A publish
waits for nobody and counts those that have accepted. And all that the observer gets is a matter of
its own shares, whatever others do. -/
theorem delivered_in_order (hrun : Run { bus := .ofCapacity n } (later ++ m :: earlier) x)
    (hcome : m.action = .subscribe name) (hid : m.before.bus.nextId = id) :
    ∃ o, x.bus.find? id = some o ∧
      offered (shares id later) ++ pending id x = published id later ∧
      (accepted (max 1 n) (shares id later)).Sublist (published id later) ∧
      handed id later ++ o.queue = accepted (max 1 n) (shares id later) ∧
      handled id later ++ o.handling.toList = handed id later ∧
      (∀ l₂ k l₁ e, later = l₂ ++ k :: l₁ → k.share? id = some (.offered e) →
        ∃ oₖ, k.before.bus.find? id = some oₖ ∧
          accepted (max 1 n) (shares id (k :: l₁)) = accepted (max 1 n) (shares id l₁) ++
            (if oₖ.queue.length < max 1 n then [e] else []) ∧
          (k.acceptor? = some id ↔ oₖ.queue.length < max 1 n)) ∧
      (∀ p, x.posting = some p →
        p.delivered = (acceptors (later ++ m :: earlier)).length ∧
        (acceptors (later ++ m :: earlier)).Nodup ∧
        ((∃ x', x.step? .offer = some x') ∨ ∃ x', x.step? .conclude = some x')) ∧
      (∃ more x' o', Run x more x' ∧ Works id more ∧ x'.bus.find? id = some o' ∧
        o'.queue = [] ∧ handled id (more ++ later) = accepted (max 1 n) (shares id later)) ∧
      ∀ later' m' earlier' x' name', Run { bus := .ofCapacity n } (later' ++ m' :: earlier') x' →
        m'.action = .subscribe name' → shares m'.before.bus.nextId later' = shares id later →
        ∃ o', x'.bus.find? m'.before.bus.nextId = some o' ∧
          handed m'.before.bus.nextId later' = handed id later ∧
          handled m'.before.bus.nextId later' = handled id later ∧
          o'.queue = o.queue ∧ o'.handling = o.handling := by
  subst hid
  have h := hrun.since hcome
  obtain ⟨o, ho, haccount⟩ := h.account
  refine ⟨o, ho, h.offered_append_pending, h.accepted_sublist, haccount.handed_append_queue,
    haccount.handled_append_handling, ?missed, fun p hp => ?counted, h.exists_handled ho,
    ?isolated⟩
  case missed =>
    rintro l₂ k l₁ e rfl hshare
    exact h.accepted_offer hshare
  case counted =>
    have hcounted := hrun.counted (orderly_ofCapacity n) rfl
    exact ⟨hcounted.delivered p hp, (List.nodup_append.mp (hcounted.rest p hp)).1,
      exists_step_of_posting hp⟩
  case isolated =>
    intro later' m' earlier' x' name' hrun' hcome' hshares
    obtain ⟨o', ho', haccount'⟩ := (hrun'.since hcome').account
    exact ⟨o', ho', haccount.congr haccount' hshares⟩

/-- With room for one event, the second of two is missed, and the first waits to be taken. -/
theorem delivered_in_order_when_full :
    ∃ (e e' : Event) (later earlier : List Moment) (m : Moment) (x : Exchange) (o : Observer),
      Run { bus := .ofCapacity 0 } (later ++ m :: earlier) x ∧ m.action = .subscribe "slow" ∧
      x.bus.find? 1 = some o ∧ published 1 later = [e, e'] ∧ accepted 1 (shares 1 later) = [e] ∧
      handed 1 later = [] ∧ o.queue = [e] ∧
      (∃ p, x.posting = some p ∧ p.delivered = 0) ∧
      ∃ more x', Run x more x' ∧ handled 1 (more ++ later) = [e] := by
  let e : Event := ⟨.discovered, .bare "a" "pi" (.v4 10 0 0 1) 80 (.ofSeconds 0)⟩
  let e' : Event := ⟨.lost, .bare "a" "pi" (.v4 10 0 0 1) 80 (.ofSeconds 0)⟩
  have h₁ : Run { bus := .ofCapacity 0 } ([] ++ _ :: []) _ :=
    Run.start.step (a := .subscribe "slow") rfl
  have h₂ := h₁.step (a := .publish e) rfl
  have h₃ := h₂.step (a := .offer) rfl
  have h₄ := h₃.step (a := .conclude) rfl
  have h₅ := h₄.step (a := .publish e') rfl
  have h₆ : Run { bus := .ofCapacity 0 } ([_, _, _, _, _] ++ _ :: []) _ := h₅.step (a := .offer) rfl
  obtain ⟨o, ho, -, -, hqueue, -, -, hcounted, hrest, -⟩ := delivered_in_order h₆ rfl rfl
  obtain ⟨more, x', -, hmore, -, -, -, hhandled⟩ := hrest
  exact ⟨e, e', _, _, _, _, o, h₆, rfl, ho, rfl, rfl, rfl, hqueue, ⟨_, rfl, (hcounted _ rfl).1⟩,
    more, x', hmore, hhandled⟩

end Exchange

end NodeWatch
