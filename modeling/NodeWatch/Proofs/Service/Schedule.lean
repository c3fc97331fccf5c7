import NodeWatch.Proofs.Config.Validity
import NodeWatch.Proofs.Service.Looks
import NodeWatch.Proofs.Service.Sightings

/-!
The schedule of the background, and how many looks may miss a node.

The looks of the background are due one interval after the other, and each ends within the timeout.
Two of them may so end further apart than they are due, but by less than one interval, since no
timeout is that long.
-/

namespace NodeWatch.Service

/-- A look of the background ends. -/
def Moment.Ends (m : Moment) (result : Except Backend.Error (List Observation)) (t : Nat) : Prop :=
  ∃ l, l.background = true ∧ m.action = .finish l result t

/-- What may happen on schedule when the background has begun some looks since its start. The last
of them is due one interval later than the one before, the first of all at the start; it ends when
it is due or within the timeout. Nobody stops the service. Callers may look, and it may be swept, at
any time. -/
def Action.onTime (σ : Settings) (start begun : Nat) : Action → Bool
  | finish l _ t =>
    let due := start + (begun - 1) * σ.interval
    !l.background || (due ≤ t && t ≤ due + σ.timeout)
  | stop => false
  | _ => true

/-- The background has kept its schedule since a start. -/
def onSchedule (σ : Settings) (start : Nat) : List Moment → Bool
  | [] => true
  | m :: past => onSchedule σ start past && m.action.onTime σ start (begun past)

variable {c : Config.Discovery} {backend : String} {pins : Bool} {metrics : Metrics}
  {clock : Time.Clock} {σ : Settings} {start t u : Nat}
  {result result' : Except Backend.Error (List Observation)}
  {s₀ s₁ s : Service} {past later earlier between before : List Moment} {m m₀ a b : Moment}
  {id : String}

/-! ### Settings -/

/-- A valid timeout is shorter than the interval. -/
lemma timeout_lt_interval (h : c.fault? = none) (backend : String) (pins : Bool)
    (clock : Time.Clock) : (Settings.ofConfig c backend pins clock).timeout <
      (Settings.ofConfig c backend pins clock).interval := by
  have hlt := UInt64.lt_iff_toNat_lt.mp (Config.Discovery.fault?_eq_none_iff.mp h).timeout_lt
  exact Nat.mul_lt_mul_of_pos_right hlt clock.pos

lemma threshold_ofConfig (c : Config.Discovery) (backend : String) (pins : Bool)
    (clock : Time.Clock) : (Settings.ofConfig c backend pins clock).threshold =
      c.stalenessMultiplier.toNat * (Settings.ofConfig c backend pins clock).interval := by
  show c.intervalSecs.toNat * c.stalenessMultiplier.toNat * clock.second =
    c.stalenessMultiplier.toNat * (c.intervalSecs.toNat * clock.second)
  rw [Nat.mul_comm c.intervalSecs.toNat, Nat.mul_assoc]

/-! ### The schedule -/

lemma onSchedule_cons (h : onSchedule σ start (m :: past) = true) :
    onSchedule σ start past = true ∧ m.action.onTime σ start (begun past) = true := by
  simpa [onSchedule] using h

lemma onSchedule_of_append (h : onSchedule σ start (later ++ past) = true) :
    onSchedule σ start past = true := by
  induction later with
  | nil => exact h
  | cons m later ih => exact ih (onSchedule_cons h).1

lemma ne_stop_of_onSchedule (h : onSchedule σ start past = true) (hm : m ∈ past) :
    m.action ≠ .stop := by
  obtain ⟨later, earlier, rfl⟩ := List.append_of_mem hm
  have htime := (onSchedule_cons (onSchedule_of_append h)).2
  intro hstop
  simp [hstop, Action.onTime] at htime

/-- When a look of the background may end. -/
lemma ends_of_onSchedule (h : onSchedule σ start (m :: past) = true) (hm : m.Ends result t) :
    start + (begun past - 1) * σ.interval ≤ t ∧
      t ≤ start + (begun past - 1) * σ.interval + σ.timeout := by
  obtain ⟨l, hb, hact⟩ := hm
  simpa [hact, hb, Action.onTime] using (onSchedule_cons h).2

/-- While nobody stops it, a service that runs goes on running. -/
lemma Run.running (h : Run s₁ past s) (h₁ : s₁.phase = .running)
    (hstop : ∀ m ∈ past, m.action ≠ .stop) : s.phase = .running := by
  by_contra hp
  obtain ⟨k, hk, hbefore, t, made, hafter⟩ :=
    h.exists_step (p := (·.phase ≠ .running)) (not_not_intro h₁) hp
  rw [not_not] at hbefore
  rw [(step?_frame made).phase] at hafter
  cases ha : k.action with
  | stop => exact hstop k hk ha
  | stopped =>
    rw [ha] at made
    simp [(step?_stopped made).1] at hbefore
  | _ => simp_all [phaseAfter]

/-- The look that ends while the service runs is the only one that has begun and not ended. -/
lemma Run.begun_eq (h : Run s₁ (m :: past) s) (h₁ : s₁.Looking) (hidle : s₁.busy = 0)
    (hrunning : m.before.phase = .running) (hm : m.Ends result t) :
    begun past = ended past + 1 := by
  obtain ⟨l, hb, ha⟩ := hm
  obtain ⟨hpast, made⟩ := h.last
  rw [ha] at made
  have hpos := busy_pos_of_mem (step?_finish made).1 hb
  have hlooking := hpast.looking h₁
  have hsingle := hlooking.single (hlooking.calm hrunning)
  have hcount := hpast.busy_add_ended
  omega

/-- **Between two looks of the background, time passes for each that ends in between, for the later
of the two itself, and for one timeout.** -/
lemma gap_of_onSchedule (h : onSchedule σ start (b :: (between ++ a :: earlier)) = true)
    (hrun : Run s₁ (b :: (between ++ a :: earlier)) s) (h₁ : s₁.Looking) (hidle : s₁.busy = 0)
    (hrunning : s₁.phase = .running) (ha : a.Ends result t) (hb : b.Ends result' u) :
    u ≤ t + (ended between + 1) * σ.interval + σ.timeout := by
  obtain ⟨s', hpast, made, -⟩ := hrun.last.1.split
  have hrunning_a := hpast.running hrunning fun k hk => ne_stop_of_onSchedule h (by simp [hk])
  have hrunning_b := hrun.last.1.running hrunning fun k hk =>
    ne_stop_of_onSchedule h (List.mem_cons_of_mem _ hk)
  have hbegun_a := (hpast.step made).begun_eq h₁ hidle hrunning_a ha
  have hbegun_b := hrun.begun_eq h₁ hidle hrunning_b hb
  have hends : a.action.ends = 1 := by
    obtain ⟨l, hbg, hact⟩ := ha
    simp [hact, Action.ends, hbg]
  have hcount : ended (between ++ a :: earlier) = ended between + 1 + ended earlier := by
    rw [ended_append, ended_cons, hends, Nat.add_assoc]
  have hfirst := (ends_of_onSchedule (onSchedule_of_append (onSchedule_cons h).1) ha).1
  have hlast := (ends_of_onSchedule h hb).2
  rw [hbegun_a, Nat.add_sub_cancel] at hfirst
  rw [hbegun_b, hcount, Nat.add_sub_cancel, Nat.add_mul] at hlast
  omega

/-! ### Who is seen on schedule -/

lemma Moment.sees?_of_ends {os : List Observation} (ha : a.Ends (.ok os) t)
    (hp : a.before.phase = .running) (hseen : ∃ o ∈ os, o.id = id) :
    ∃ g, a.sees? id = some g ∧ g.seenAt = t := by
  obtain ⟨l, -, hact⟩ := ha
  obtain ⟨o, ho, hid⟩ := hseen
  have hfound : (os.reverse.find? (·.id = id)).isSome = true :=
    List.find?_isSome.mpr ⟨o, List.mem_reverse.mpr ho, by simpa using hid⟩
  obtain ⟨p, hfind⟩ := Option.isSome_iff_exists.mp hfound
  refine ⟨⟨p, a.before.settings.pins, t⟩, ?_, rfl⟩
  simp [Moment.sees?, hact, hp, seen, hfind]

/-- **A node that is seldom missed is not lost.** The background was started and has kept its
schedule. A look of it saw the node; at most two looks fewer than the staleness multiplier ended
after that, whatever they saw and whether or not they failed; then one more ended, and perhaps saw
the node again. In between the node is not lost, however often and whenever it was swept. -/
theorem not_lost_between_looks (hmake : make c backend pins metrics clock = .ok s₀)
    (hrun : Run s₀ (b :: (between ++ a :: earlier) ++ m₀ :: before) s) (hstart : m₀.action = .start)
    (hstopped : m₀.before.phase = .stopped)
    (hsched :
      onSchedule (.ofConfig c backend pins clock) start (b :: (between ++ a :: earlier)) = true)
    (hclock : Chronological (b :: (between ++ a :: earlier))) {os : List Observation}
    (ha : a.Ends (.ok os) t) (hseen : ∃ o ∈ os, o.id = id) (hb : b.Ends result u)
    (hmissed : ended between + 2 ≤ c.stalenessMultiplier.toNat) :
    ∀ k ∈ between, ∀ e ∈ k.events, e.kind = .lost → e.node.id ≠ id := by
  obtain ⟨hempty, -, -⟩ := make_eq_ok hmake
  obtain ⟨hvalid, hsettings, -, -⟩ := new_of_make hmake
  obtain ⟨s₁, hpast, hmade, hlater⟩ := hrun.split
  -- the service after the start: it runs, and no look of the background is under way
  have hlook₀ := hpast.looking (looking_of_make hmake)
  have hlook₁ := hlook₀.step hmade
  have hphase₁ : s₁.phase = .running := by
    rw [(step?_frame hmade).phase, hstart, phaseAfter, if_neg (by simp [hstopped])]
  have hidle₁ : s₁.busy = 0 := by
    have hcount := step?_busy hmade
    rw [hstart, hlook₀.idle hstopped] at hcount
    exact hcount
  have hgap := gap_of_onSchedule hsched hlater hlook₁ hidle₁ hphase₁ ha hb
  have htimeout := timeout_lt_interval hvalid backend pins clock
  have hthreshold := threshold_ofConfig c backend pins clock
  generalize Settings.ofConfig c backend pins clock = σ at *
  have hmany : (ended between + 2) * σ.interval ≤ σ.threshold :=
    hthreshold ▸ Nat.mul_le_mul_right _ hmissed
  -- what the first of the two looks saw
  obtain ⟨s', hpast_a, -, -⟩ := hlater.last.1.split
  have hphase_a := hpast_a.running hphase₁ fun k hk =>
    ne_stop_of_onSchedule hsched (by simp [hk])
  obtain ⟨g, hsees, rfl⟩ := Moment.sees?_of_ends ha hphase_a hseen
  intro k hk e he hkind hid
  obtain ⟨late, mid, rfl⟩ := List.append_of_mem hk
  have hsplit : b :: (late ++ k :: mid ++ a :: earlier) ++ m₀ :: before =
      b :: late ++ k :: (mid ++ a :: (earlier ++ m₀ :: before)) := by simp
  rw [hsplit] at hrun
  obtain ⟨s'', hpast_k, hmade_k, -⟩ := hrun.split
  have hclock_a : Chronological (mid ++ a :: earlier) := by
    have hclock' := hclock.tail
    rw [List.append_assoc, List.cons_append] at hclock'
    exact hclock'.of_append.tail
  -- the sweep that loses the node is made before the second look ends
  obtain ⟨v, hsweep, hlate⟩ :=
    (hpast_k.step hmade_k).stale_of_lost hempty hclock_a hsees he hkind hid
  have hbefore : v ≤ u := by
    obtain ⟨l, -, hact⟩ := hb
    exact hclock.le_of_mem (by rw [hact]; rfl) (by simp) (Action.time?_of_sweeps? hsweep)
  rw [hsettings] at hlate
  rw [Nat.add_mul] at hmany hgap
  omega

/-- A node is seen, the next look fails, it is swept at the time of the look after that, and this
look sees the node again. -/
theorem not_lost_between_looks_for_one_failure :
    ∃ (s₀ s : Service) (between earlier : List Moment) (a b m₀ : Moment),
      make {} "broadcast" false {} = .ok s₀ ∧
      Run s₀ (b :: (between ++ a :: earlier) ++ m₀ :: []) s ∧ s.roster.size = 1 ∧
      ended between = 1 ∧ (∃ k ∈ between, k.action.sweeps? = some 60000) ∧
      ∀ k ∈ between, ∀ e ∈ k.events, e.kind = .lost → e.node.id ≠ "a" := by
  let o : Observation := .bare "a" "pi" (.v4 10 0 0 1) 80 (.ofSeconds 0)
  have h₀ : Run fresh _ _ := Run.start.step (a := .start) rfl
  have h₁ := h₀.step (a := .tick) rfl
  have h₂ := h₁.step (a := .finish ⟨0, true⟩ (.ok [o]) 5) rfl
  have h₃ := h₂.step (a := .tell) rfl
  have h₄ := h₃.step (a := .tick) rfl
  have h₅ := h₄.step (a := .finish ⟨1, true⟩ (.error (.timeout (.ofSeconds 5))) 35000) rfl
  have h₆ := h₅.step (a := .tick) rfl
  have h₇ := h₆.step (a := .sweepTick 60000 .same) rfl
  have h₈ : Run fresh (_ :: ([_, _, _, _, _] ++ _ :: [_]) ++ _ :: []) _ :=
    h₇.step (a := .finish ⟨2, true⟩ (.ok [o]) 65000) rfl
  have hkept : ∀ k ∈ (_ : List Moment), ∀ e ∈ k.events, e.kind = .lost → e.node.id ≠ "a" :=
    not_lost_between_looks make_fresh h₈ rfl rfl (show onSchedule _ 0 _ = true by decide +kernel)
      (by simp [Chronological, Action.time?]) ⟨_, rfl, rfl⟩ ⟨o, by simp, rfl⟩ ⟨_, rfl, rfl⟩
      (by decide)
  exact ⟨fresh, _, _, _, _, _, _, make_fresh, h₈, rfl, rfl, ⟨_, List.mem_cons_self, rfl⟩, hkept⟩

end NodeWatch.Service
