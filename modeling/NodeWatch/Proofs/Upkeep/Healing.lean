import NodeWatch.Proofs.Observation
import NodeWatch.Proofs.Upkeep.Presence

/-!
What becomes of events that are dropped.

Calls of the store may fail and queues may overflow. What counts in the end are the events that have
been reconciled without error. A later look tells of a node again if it is not a member yet or has
changed, and then its record is right again; of a member that is as it was nothing is told, and what
was missed stays missed.
-/

namespace NodeWatch.Upkeep

open Store Reconcile

/-- What is seen in a moment: the sample of a look that is not discarded. -/
def Moment.sample (k : Moment) : List Observation :=
  match k.action with
  | .serve (.finish _ (.ok os) _) =>
    if k.before.service.phase = .stopping then [] else Observation.latestById os
  | _ => []

variable {u₀ u : Upkeep} {m : Medium} {past later earlier : List Moment} {k : Moment}
  {n : Observation}

/-- What a look tells is what it changes in the roster. -/
lemma events_of_sample {u' : Upkeep} (hmade : k.before.step? k.action = some u')
    (hn : n ∈ k.sample) : ∃ now, k.served.events =
      (k.before.service.roster.observeAll k.before.service.settings.pins now k.sample).1 := by
  obtain ⟨v, a⟩ := k
  unfold Moment.sample at hn ⊢
  split at hn
  next look os now ha =>
    obtain rfl : a = .serve (.finish look (.ok os) now) := ha
    have hphase : v.service.phase ≠ .stopping := by
      intro h
      simp [h] at hn
    obtain ⟨hstep, -⟩ := step?_served hmade
    refine ⟨now, ?_⟩
    generalize (⟨v, .serve (.finish look (.ok os) now)⟩ : Moment).served.events = es at hstep
    simp only [Moment.serves, Service.step?] at hstep
    split at hstep
    · simp only [Service.endLook, Service.commit, Service.closeLook, Service.counting_phase,
        hphase, if_false, Option.some.injEq, Prod.mk.injEq] at hstep
      rw [← hstep.1]
      simp only [hphase, if_false]
      rfl
    · simp at hstep
  next => simp at hn

/-- **A look tells of a node that it sees if and only if that is no member or has changed.** -/
lemma told_of_sample {u' : Upkeep} (hmade : k.before.step? k.action = some u')
    (hn : n ∈ k.sample) : (∃ e ∈ k.served.events, e.node = n) ↔
      k.before.service.roster.picture n.id ≠ some n.data := by
  obtain ⟨now, hevents⟩ := events_of_sample hmade hn
  have hnodup : (k.sample.map (·.id)).Nodup := by
    unfold Moment.sample
    split
    · split
      · exact List.nodup_nil
      · exact Observation.nodup_latestById _
    · exact List.nodup_nil
  rw [hevents]
  exact Roster.told_observeAll_iff hnodup _ _ _ hn

/-- **What dropped events leave behind.** At any time a live record that is not marked is at an
address if and only if the last event there that has been reconciled without error tells that a node
is there. A look that sees a node tells of it unless the node is a member and has not changed; and
once what it tells is reconciled without error there is such a record at the address of the node,
as long as no loss at that address is reconciled after it. -/
theorem healed_iff (hstore : u₀.store.Holds ⟨m, 0, []⟩) (hrun : Run u₀ past u)
    (htime : Timely m past) :
    ∃ l, u.store.Holds l ∧
      (∀ a, (∃ r, liveAt l.records a = some r ∧ r.status ≠ .unknown) ↔
        ∃ e, lastAt (Service.history Moment.settled past) a = some e ∧ Seen e) ∧
      ∀ later k earlier n, past = later ++ k :: earlier → n ∈ k.sample →
        ((∃ e ∈ k.served.events, e.node = n) ↔
          k.before.service.roster.picture n.id ≠ some n.data) ∧
        ∀ e ∈ k.served.events, e.node = n → ∀ front back,
          Service.history Moment.settled later = front ++ e :: back →
          (∀ d ∈ back, d.node.address = n.address → Seen d) →
          ∃ r, liveAt l.records n.address = some r ∧ r.status ≠ .unknown := by
  obtain ⟨l, htracks, hreflects⟩ := hrun.reflects htime ⟨hstore, Ledger.sound_nil m, rfl⟩
  refine ⟨l, htracks.1, hreflects.present_iff, ?_⟩
  rintro later k earlier n rfl hn
  obtain ⟨u', hmade⟩ := hrun.made
  refine ⟨told_of_sample hmade hn, ?_⟩
  rintro e he rfl front back hsettled hback
  have hseen : Seen e := by
    obtain ⟨now, hevents⟩ := events_of_sample hmade hn
    rw [hevents] at he
    exact Roster.kind_observeAll _ _ _ _ e he
  have hthere : ∃ d ∈ e :: back, d.node.address = e.node.address := ⟨e, by simp, rfl⟩
  obtain ⟨d, hd, hlast⟩ :=
    lastAt_append (Service.history Moment.settled (k :: earlier) ++ front) hthere
  rw [hreflects.present_iff, Service.history_append, hsettled, ← List.append_assoc]
  refine ⟨d, hlast, ?_⟩
  rcases List.mem_cons.mp hd with rfl | hd
  · exact hseen
  · exact hback d hd (lastAt_eq_some hlast).2

/-- A node is seen while the store is in order. -/
theorem healed_iff_for_one_node : ∃ past u l, Run (begin fresh .inMemory) past u ∧
    u.store.Holds l ∧ ∃ r, liveAt l.records (neighbour "a").address = some r ∧
      r.status ≠ .unknown := by
  have hplay : ∃ x ∈ (begin fresh .inMemory).play? [] (look 0 [neighbour "a"] 0 ++ upkeep),
      ∃ e ∈ lastAt (Service.history Moment.settled x.1) (neighbour "a").address,
        e.kind ≠ .lost := by
    decide +kernel
  obtain ⟨⟨past, u⟩, hplay, e, he, hseen⟩ := hplay
  have hrun := Run.start.play? hplay
  have htime : Timely (.memory .same) past :=
    fun _ _ => ⟨fun _ _ _ _ => trivial, fun _ _ => trivial⟩
  obtain ⟨l, hl, hiff, -⟩ := healed_iff Repository.holds_inMemory hrun htime
  exact ⟨past, u, l, hrun, hl, (hiff _).mpr ⟨e, he, hseen⟩⟩

/-! ### A node that is missed -/

/-- The reconciler goes through an event while the store is out of order. -/
def failure : List Action :=
  [.serve (.take 1), .reconcile (fun n => (.ofSeconds n, some (.unavailable "closed"))) []]

/-- **A member without a record**: the store was out of order for a time, and the look at the end
has seen the node again. All that this look tells is reconciled, since it tells nothing. -/
theorem missed_while_present : ∃ k past u, Run (begin fresh .inMemory) (k :: past) u ∧
    (∀ j ∈ k :: past, ∀ e ∈ j.served.events, e.node = neighbour "a") ∧
    neighbour "a" ∈ k.sample ∧ k.served.events = [] ∧ u.Idle ∧
    (∃ j ∈ u.service.roster.members, j.node = neighbour "a") ∧
    u.found? (neighbour "a").address = none := by
  have hplay : ∃ x ∈ (begin fresh .inMemory).play? []
      (look 0 [neighbour "a"] 0 ++ failure ++
        [.serve .ask, .serve (.finish ⟨1, false⟩ (.ok [neighbour "a"]) 10000)]),
      ∃ k ∈ x.1.head?, (∀ j ∈ x.1, ∀ e ∈ j.served.events, e.node = neighbour "a") ∧
        neighbour "a" ∈ k.sample ∧ k.served.events = [] ∧ x.2.Idle ∧
        (∃ j ∈ x.2.service.roster.members, j.node = neighbour "a") ∧
        x.2.found? (neighbour "a").address = none := by
    decide +kernel
  obtain ⟨⟨past, u⟩, hplay, k, hk, hrest⟩ := hplay
  have hrun := Run.start.play? hplay
  cases past with
  | nil => simp at hk
  | cons j past =>
    obtain rfl : j = k := by simpa using hk
    exact ⟨j, past, u, hrun, hrest⟩

end NodeWatch.Upkeep
