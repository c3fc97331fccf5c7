import Mathlib.Tactic.Common
import NodeWatch.Config

/-!
What valid settings are.

The checks stop at the first fault. Settings in which they find none satisfy every condition, and
settings that satisfy every condition have no fault.
-/

namespace NodeWatch.Config

open Text

/-- What is asked of the settings of a discovery. -/
structure Discovery.Valid (c : Discovery) : Prop where
  interval : c.intervalSecs ≠ 0
  timeout : c.timeoutSecs ≠ 0
  timeout_lt : c.timeoutSecs < c.intervalSecs
  staleness : c.stalenessMultiplier ≠ 0
  sweep : c.sweepMultiplier ≠ 0
  queue : c.observerQueueCapacity ≠ 0
  serviceType : isServiceType c.serviceType.toList = true
  concurrency : c.method = .probe → c.probeConcurrency ≠ 0
  interface : ∀ name ∈ c.interface, isBlankText name = false

lemma Discovery.fault?_eq_none_iff {c : Discovery} : c.fault? = none ↔ c.Valid := by
  unfold fault?
  constructor
  · intro h
    split_ifs at h with hinterval htimeout hstaleness hsweep hqueue htype hprobe hblank
    obtain ⟨hzero, hlt⟩ := not_or.mp htimeout
    exact {
      interval := hinterval
      timeout := hzero
      timeout_lt := UInt64.not_le.mp hlt
      staleness := hstaleness
      sweep := hsweep
      queue := hqueue
      serviceType := by simpa using htype
      concurrency := fun hmethod hnone => hprobe ⟨hmethod, hnone⟩
      interface := by
        rw [Bool.not_eq_true, Option.any_eq_false] at hblank
        exact hblank }
  · intro h
    have htimeout : ¬ (c.timeoutSecs = 0 ∨ c.intervalSecs ≤ c.timeoutSecs) :=
      not_or.mpr ⟨h.timeout, UInt64.not_le.mpr h.timeout_lt⟩
    have hprobe : ¬ (c.method = .probe ∧ c.probeConcurrency = 0) :=
      fun ⟨hmethod, hnone⟩ => h.concurrency hmethod hnone
    have hblank : ¬ c.interface.any isBlankText = true := by
      rw [Bool.not_eq_true, Option.any_eq_false]
      exact h.interface
    rw [if_neg h.interval, if_neg htimeout, if_neg h.staleness, if_neg h.sweep, if_neg h.queue,
      if_neg (by simp [h.serviceType]), if_neg hprobe, if_neg hblank]

/-- What is asked of all settings together. -/
structure Valid (c : Config) : Prop where
  discovery : c.discovery.Valid
  reannounce : c.announce.reannounceSecs ≠ 0
  ttl : c.announce.reannounceSecs.toNat ≤ c.announce.ttlSecs.toNat
  format : c.logging.format = "text" ∨ c.logging.format = "json"
  webhook : ∀ u ∈ c.notify.webhookUrl, isWebUrl u = true

end NodeWatch.Config
