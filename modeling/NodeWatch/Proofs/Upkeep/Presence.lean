import NodeWatch.Proofs.Service.Step
import NodeWatch.Proofs.Upkeep.Records

/-!
What becomes of the records of those who are present.

If every event is reconciled without error, each member has a record at its address. But members
have identities and records have addresses: a record is marked as soon as any identity is lost that
was last seen at its address, and another one that is still there has nothing to tell that would
take the mark away.
-/

namespace NodeWatch.Upkeep

open Store Reconcile

/-- No reconciliation fails. -/
def NoneFails (past : List Moment) : Prop :=
  ∀ k ∈ past, ∀ h ∈ k.handled?, h.2.isOk = true

instance (past : List Moment) : Decidable (NoneFails past) :=
  inferInstanceAs (Decidable (∀ k ∈ past, ∀ h ∈ k.handled?, h.2.isOk = true))

variable {c : Config.Discovery} {backend : String} {pins : Bool} {metrics : Metrics}
  {clock : Time.Clock} {s₀ : Service} {store : Repository} {m : Medium} {past : List Moment}
  {u : Upkeep}

lemma NoneFails.settled_eq_tried (h : NoneFails past) :
    Service.history Moment.settled past = Service.history Moment.tried past := by
  induction past with
  | nil => rfl
  | cons k past ih =>
    have hk : k.settled = k.tried := by
      have hnone := h k (by simp)
      unfold Moment.settled Moment.tried
      rcases hh : k.handled? with _ | ⟨e, x | o⟩
      · rfl
      · exact absurd (hnone _ hh) (by simp [Except.isOk, Except.toBool])
      · rfl
    rw [Service.history_cons, Service.history_cons, hk, ih fun j hj => h j (by simp [hj])]

/-- **The records of the members.** Once all events are reconciled each member has a live record at
its address, which is marked if and only if the last event at that address tells of a loss; and
that is the loss of another identity than the member's. -/
theorem present_records (hmake : Service.make c backend pins metrics clock = .ok s₀)
    (hstore : store.Holds ⟨m, 0, []⟩) (hrun : Run (begin s₀ store) past u)
    (htime : Timely m past) (hfine : NoneFails past)
    (hroom : Service.HasRoom s₀.workers.bus.nextId (past.map Moment.served)) (hidle : u.Idle) :
    ∃ l, u.store.Holds l ∧ ∀ k ∈ u.service.roster.members, ∃ r e,
      liveAt l.records k.node.address = some r ∧
      lastAt (Service.history Service.Moment.events (past.map Moment.served)) k.node.address =
        some e ∧
      (r.status = .unknown ↔ e.kind = .lost) ∧ (e.kind = .lost → e.node.id ≠ k.node.id) := by
  obtain ⟨l, htracks, hreflects⟩ := hrun.reflects htime ⟨hstore, Ledger.sound_nil m, rfl⟩
  rw [hfine.settled_eq_tried, hrun.tried_eq_events hmake hroom hidle] at hreflects
  obtain ⟨hdistinct, hreplay⟩ := hrun.replay? hmake
  refine ⟨l, htracks.1, fun k hk => ?_⟩
  have hpicture : u.service.roster.picture k.node.id = some k.node.data := by
    rw [Roster.picture, Roster.find?_of_mem hdistinct hk]
    rfl
  -- the event that has told what is known of the member was at the address where it is
  obtain ⟨front, e, back, hes, hseen, hid, hdata, hback⟩ :=
    Picture.exists_of_replay? hreplay hpicture
  have haddress : e.node.address = k.node.address := congrArg (fun d => d.2.1) hdata
  obtain ⟨r, hr⟩ := hreflects.recorded e (by rw [hes]; simp) hseen
  rw [haddress] at hr
  obtain ⟨d, hd, hiff⟩ := hreflects.told _ r hr
  refine ⟨r, d, hr, hd, hiff, fun hlost => ?_⟩
  have hthere : ∃ x ∈ e :: back, x.node.address = k.node.address := ⟨e, by simp, haddress⟩
  obtain ⟨d', hd', hlast⟩ := lastAt_append front hthere
  rw [← hes, hd] at hlast
  obtain rfl := Option.some.inj hlast
  rcases List.mem_cons.mp hd' with rfl | hd'
  · exact absurd hlost hseen
  · exact hback d hd'

/-! ### Two identities at one address -/

/-- What is found at an address. -/
def found? (u : Upkeep) (a : Net.Address) : Option Record :=
  match (u.store.step default (.findByAddress a)).1 with
  | .ok r => r
  | .error _ => none

def fresh : Service :=
  { settings := .ofConfig {} "broadcast" false, workers := { bus := .ofCapacity 256 } }

lemma make_fresh : Service.make {} "broadcast" false {} = .ok fresh := Service.make_fresh

/-- A node of an identity, always at the same address. -/
def neighbour (id : String) : Observation := .bare id "pi" (.v4 10 0 0 1) 80 (.ofSeconds 0)

/-- A look sees nodes, and what has changed is published. -/
def look (n : Nat) (os : List Observation) (now : Nat) : List Action :=
  [.serve .ask, .serve (.finish ⟨n, false⟩ (.ok os) now), .serve .tell]

/-- The reconciler goes through an event, and no call fails. -/
def upkeep : List Action := [.serve (.take 1), .reconcile (fun n => (.ofSeconds n, none)) []]

theorem present_records_for_one_node : ∃ past u l, Run (begin fresh .inMemory) past u ∧
    u.store.Holds l ∧ ∀ k ∈ u.service.roster.members, ∃ r e,
      liveAt l.records k.node.address = some r ∧
      lastAt (Service.history Service.Moment.events (past.map Moment.served)) k.node.address =
        some e ∧
      (r.status = .unknown ↔ e.kind = .lost) ∧ (e.kind = .lost → e.node.id ≠ k.node.id) := by
  have hplay : ∃ x ∈ (begin fresh .inMemory).play? [] (look 0 [neighbour "a"] 0 ++ upkeep),
      NoneFails x.1 ∧ Service.HasRoom 1 (x.1.map Moment.served) ∧ x.2.Idle := by
    decide +kernel
  obtain ⟨⟨past, u⟩, hplay, hfine, hroom, hidle⟩ := hplay
  have hrun := Run.start.play? hplay
  obtain ⟨l, hl, h⟩ := present_records make_fresh Repository.holds_inMemory hrun
    (fun _ _ => ⟨fun _ _ _ _ => trivial, fun _ _ => trivial⟩) hfine hroom hidle
  exact ⟨past, u, l, hrun, hl, h⟩

/-- Both are seen, both events are reconciled, and then the first is given up. -/
def departure : List Action :=
  look 0 [neighbour "a", neighbour "b"] 0 ++ [.serve .tell] ++ upkeep ++ upkeep ++
    [.serve .ask, .serve (.finish ⟨1, false⟩ (.ok [neighbour "b"]) 90000),
      .serve (.sweep 90000 .same), .serve .tell] ++ upkeep

/-- **A member whose record is marked**, though nothing has failed and every event has been
reconciled. -/
theorem marked_while_present : ∃ past u, Run (begin fresh .inMemory) past u ∧ NoneFails past ∧
    Service.HasRoom 1 (past.map Moment.served) ∧ u.Idle ∧
    ∃ k ∈ u.service.roster.members, ∃ r ∈ u.found? k.node.address, r.status = .unknown := by
  have hplay : ∃ x ∈ (begin fresh .inMemory).play? [] departure, NoneFails x.1 ∧
      Service.HasRoom 1 (x.1.map Moment.served) ∧ x.2.Idle ∧
      ∃ k ∈ x.2.service.roster.members, ∃ r ∈ x.2.found? k.node.address,
        r.status = .unknown := by
    decide +kernel
  obtain ⟨⟨past, u⟩, hplay, hrest⟩ := hplay
  exact ⟨past, u, Run.start.play? hplay, hrest⟩

end NodeWatch.Upkeep
