import Mathlib.Order.MinMax
import NodeWatch.Proofs.Config.Validity
import NodeWatch.Service

/-!
The timings of a discovery.

Valid settings put the timeout below the interval, and none of the multiples of the interval is
shorter than it. Whether a multiple is a span at all, no check asks: the main statement gives the
exact bound, which settings can exceed and still be valid.
-/

namespace NodeWatch

/-! ### Multiples of spans -/

namespace Time.Span

variable {s n : Nat} {d : Span}

/-- A multiple of some seconds is a span exactly if it has no more seconds than the longest one. -/
lemma scale?_ofSeconds (s n : Nat) :
    (ofSeconds s).scale? n = if s * n ≤ maxSeconds then some (ofSeconds (s * n)) else none := by
  have hnanos : s * 1000000000 * n = s * n * 1000000000 := Nat.mul_right_comm s 1000000000 n
  have hseconds : s * 1000000000 * n / 1000000000 = s * n := by
    rw [hnanos, Nat.mul_div_cancel _ (by decide)]
  show (if s * 1000000000 * n / 1000000000 ≤ maxSeconds then some (Span.mk (s * 1000000000 * n))
    else none) = _
  rw [hseconds, hnanos]
  rfl

lemma scale?_ofSeconds_eq_some :
    (ofSeconds s).scale? n = some d ↔ s * n ≤ maxSeconds ∧ d = ofSeconds (s * n) := by
  rw [scale?_ofSeconds]
  split
  next h => simp [h, eq_comm]
  next h => simp [h]

end Time.Span

/-! ### Timings of a discovery -/

namespace Config.Discovery

open Time.Span

variable {c : Discovery} {threshold period d : Time.Span}

/-- Both multiples of the interval are spans, and all four are in order: no look takes as long as
the interval, and neither is a node given up nor the roster swept within one. -/
structure Timed (c : Discovery) (threshold period : Time.Span) : Prop where
  threshold_eq : c.stalenessThreshold? = some threshold
  period_eq : c.sweepInterval? = some period
  timeout_pos : 0 < c.timeout.nanos
  timeout_lt : c.timeout.nanos < c.interval.nanos
  interval_le_threshold : c.interval.nanos ≤ threshold.nanos
  interval_le_period : c.interval.nanos ≤ period.nanos

lemma Valid.timeout_pos (h : c.Valid) : 0 < c.timeout.nanos := by
  have hpos : 0 < c.timeoutSecs.toNat :=
    Nat.pos_of_ne_zero fun hzero => h.timeout (UInt64.toNat_inj.mp hzero)
  exact Nat.mul_pos hpos (by decide)

lemma Valid.timeout_lt_interval (h : c.Valid) : c.timeout.nanos < c.interval.nanos := by
  have hlt := UInt64.lt_iff_toNat_lt.mp h.timeout_lt
  exact Nat.mul_lt_mul_of_pos_right hlt (by decide)

/-- A span that is a multiple of the interval is no shorter. -/
lemma interval_le_of_scale? {k : UInt32} (hk : k ≠ 0) (h : c.interval.scale? k.toNat = some d) :
    c.interval.nanos ≤ d.nanos := by
  have hpos : 0 < k.toNat := Nat.pos_of_ne_zero fun hzero => hk (UInt32.toNat_inj.mp hzero)
  obtain ⟨-, rfl⟩ := scale?_ofSeconds_eq_some.mp h
  have hle : c.intervalSecs.toNat ≤ c.intervalSecs.toNat * k.toNat :=
    Nat.le_mul_of_pos_right _ hpos
  exact Nat.mul_le_mul_right _ hle

lemma Valid.timed_iff (h : c.Valid) : c.Timed threshold period ↔
    c.stalenessThreshold? = some threshold ∧ c.sweepInterval? = some period := by
  constructor
  · exact fun htimed => ⟨htimed.threshold_eq, htimed.period_eq⟩
  · rintro ⟨hthreshold, hperiod⟩
    exact {
      threshold_eq := hthreshold
      period_eq := hperiod
      timeout_pos := h.timeout_pos
      timeout_lt := h.timeout_lt_interval
      interval_le_threshold := interval_le_of_scale? h.staleness hthreshold
      interval_le_period := interval_le_of_scale? h.sweep hperiod }

/-- The longer of the two multiples decides. -/
lemma Valid.exists_timed_iff (h : c.Valid) : (∃ threshold period, c.Timed threshold period) ↔
    c.intervalSecs.toNat * max c.stalenessMultiplier.toNat c.sweepMultiplier.toNat ≤
      maxSeconds := by
  rw [← Nat.mul_max_mul_left, max_le_iff]
  constructor
  · rintro ⟨threshold, period, htimed⟩
    exact ⟨(scale?_ofSeconds_eq_some.mp htimed.threshold_eq).1,
      (scale?_ofSeconds_eq_some.mp htimed.period_eq).1⟩
  · rintro ⟨hthreshold, hperiod⟩
    exact ⟨_, _, h.timed_iff.mpr ⟨scale?_ofSeconds_eq_some.mpr ⟨hthreshold, rfl⟩,
      scale?_ofSeconds_eq_some.mpr ⟨hperiod, rfl⟩⟩⟩

/-- **The timings of valid settings are in order as far as they exist, and they exist up to an exact
bound.** The timeout is positive and below the interval, no multiple of the interval is shorter
than it, and both multiples are spans if and only if the longer one has no more seconds than 64 bits
hold. -/
theorem timings_of_valid (h : c.fault? = none) :
    0 < c.timeout.nanos ∧ c.timeout.nanos < c.interval.nanos ∧
    (∀ d, c.stalenessThreshold? = some d → c.interval.nanos ≤ d.nanos) ∧
    (∀ d, c.sweepInterval? = some d → c.interval.nanos ≤ d.nanos) ∧
    ((∃ threshold period, c.Timed threshold period) ↔
      c.intervalSecs.toNat * max c.stalenessMultiplier.toNat c.sweepMultiplier.toNat ≤
        maxSeconds) := by
  have hvalid := fault?_eq_none_iff.mp h
  exact ⟨hvalid.timeout_pos, hvalid.timeout_lt_interval,
    fun d hd => interval_le_of_scale? hvalid.staleness hd,
    fun d hd => interval_le_of_scale? hvalid.sweep hd,
    hvalid.exists_timed_iff⟩

/-- The longest interval of which three make a span. -/
theorem timings_of_longest_interval :
    let c : Discovery := { intervalSecs := 6148914691236517205 }
    c.fault? = none ∧ ∃ threshold period, c.Timed threshold period ∧
      threshold = ofSeconds maxSeconds := by
  intro c
  have hfault : c.fault? = none := by decide
  obtain ⟨-, -, -, -, hexists⟩ := timings_of_valid hfault
  obtain ⟨threshold, period, htimed⟩ := hexists.mpr (by decide)
  have hlongest : c.intervalSecs.toNat * c.stalenessMultiplier.toNat = maxSeconds := by decide
  obtain ⟨-, hthreshold⟩ := scale?_ofSeconds_eq_some.mp htimed.threshold_eq
  rw [hlongest] at hthreshold
  exact ⟨hfault, threshold, period, htimed, hthreshold⟩

/-- **Valid settings without usable timings**: neither multiple of the longest interval is a span,
and a service is made of them all the same. Whenever it is to sweep, it fails. -/
theorem untimed_though_valid :
    let c : Discovery := { intervalSecs := 18446744073709551615 }
    c.fault? = none ∧ c.stalenessThreshold? = none ∧ c.sweepInterval? = none ∧
      ∃ s, Service.make c "broadcast" false {} = .ok s ∧ s.phase = .stopped ∧
        s.canSweep = false ∧ ∀ now places, s.step? (.sweep now places) = none :=
  ⟨by decide, by decide, by decide, _, rfl, rfl, by decide, fun _ _ => rfl⟩

end Config.Discovery

/-! ### Timings of a service -/

namespace Service.Settings

open Time.Span

variable (c : Config.Discovery) (backend : String) (pins : Bool) (clock : Time.Clock)

lemma isSpan_iff {clock : Time.Clock} {n : Nat} :
    clock.isSpan (clock.ofSeconds n) = true ↔ n ≤ maxSeconds := by
  rw [Time.Clock.isSpan, decide_eq_true_eq]
  exact ⟨fun h => Nat.le_of_mul_le_mul_right h clock.pos, Nat.mul_le_mul_right _⟩

/-- A multiple of the interval is a span by the clock of a service if it is one of the settings. -/
lemma isSpan_eq_isSome (n : Nat) :
    clock.isSpan (clock.ofSeconds (c.intervalSecs.toNat * n)) = (c.interval.scale? n).isSome := by
  rw [Bool.eq_iff_iff, isSpan_iff, Config.Discovery.interval, scale?_ofSeconds]
  split
  next h => simp [h]
  next h => simp [h]

lemma hasThreshold_ofConfig :
    (ofConfig c backend pins clock).hasThreshold = c.stalenessThreshold?.isSome :=
  isSpan_eq_isSome c clock _

lemma hasPeriod_ofConfig :
    (ofConfig c backend pins clock).hasPeriod = c.sweepInterval?.isSome :=
  isSpan_eq_isSome c clock _

end Service.Settings

end NodeWatch
