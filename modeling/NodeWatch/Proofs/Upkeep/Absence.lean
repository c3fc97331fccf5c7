import NodeWatch.Proofs.Upkeep.Presence

/-!
What becomes of the records of those who have gone.

A record is marked when the identity that was last seen at its address is lost there. An identity
that is seen at another address before that takes its loss along: the record it leaves behind stays
as it is, and no later event tells that nobody is there any more.
-/

namespace NodeWatch.Upkeep

open Store Reconcile

/-- No reconciliation fails because of the store. -/
def NoStoreFails (past : List Moment) : Prop :=
  ∀ k ∈ past, ∀ h ∈ k.handled?, ∀ a kind s, h.2 ≠ .error (.store a kind s)

variable {c : Config.Discovery} {backend : String} {pins : Bool} {metrics : Metrics}
  {clock : Time.Clock} {s₀ : Service} {store : Repository} {m : Medium} {past : List Moment}
  {u₀ u : Upkeep}
  {es : List Event} {e : Event} {l : Ledger} {a : Net.Address}

lemma NoneFails.noStoreFails (h : NoneFails past) : NoStoreFails past := by
  intro k hk x hx a kind s hs
  have hok := h k hk x hx
  rw [hs] at hok
  simp [Except.isOk, Except.toBool] at hok

/-- **The records are marked by the last events**, also if there are no names left for some of the
nodes: a node that gets no record is at an address that has none. -/
theorem Run.marks_tried (h : Run u₀ past u) (htime : Timely m past)
    (h₀ : Repository.Tracks m u₀.store ⟨m, 0, []⟩) (hfine : NoStoreFails past) :
    ∃ l, Repository.Tracks m u.store l ∧ Marks (Service.history Moment.tried past) l := by
  induction h with
  | start => exact ⟨_, h₀, (reflects_nil m).told⟩
  | @step past u u' a run made ih =>
    obtain ⟨l, htracks, hmarks⟩ := ih (fun k hk => htime k (by simp [hk]))
      fun k hk => hfine k (by simp [hk])
    obtain ⟨l', htracks', hledger⟩ := step_ledger made (fun k hk => htime k (by simp_all)) htracks
    refine ⟨l', htracks', ?_⟩
    rw [Service.history_cons]
    rcases hledger with ⟨hhandled, rfl⟩ | ⟨e, x, hhandled, hfine', hvacant⟩
    · have htried : (⟨u, a⟩ : Moment).tried = [] := by simp [Moment.tried, hhandled]
      rwa [htried, List.append_nil]
    · have htried : (⟨u, a⟩ : Moment).tried = [e] := by simp [Moment.tried, hhandled]
      rw [htried]
      rcases x with (⟨b, kind, s⟩ | b) | o
      · exact absurd rfl (hfine ⟨u, a⟩ (by simp) _ hhandled b kind s)
      · obtain rfl : l' = l := hfine'
        exact hmarks.vacant (hvacant b rfl)
      · exact hmarks.settles hfine'

/-- Nothing is told of an address after the last event there. -/
lemma lastAt_split (h : lastAt es a = some e) : ∃ front back, es = front ++ e :: back ∧
    e.node.address = a ∧ ∀ d ∈ back, d.node.address ≠ a := by
  obtain ⟨ha, front, back, hes, hfront⟩ := List.find?_eq_some_iff_append.mp h
  refine ⟨back.reverse, front.reverse, ?_, by simpa using ha, fun d hd => ?_⟩
  · rw [← List.reverse_reverse es, hes]
    simp
  · simpa using hfront d (List.mem_reverse.mp hd)

/-- **The records of those who have gone.** Once all events are reconciled, a live record at an
address where no member is is marked, unless the identity that was seen there last has been seen at
another address before it could be lost. So all of them are marked if no identity ever changes its
address. -/
theorem absent_records (hmake : Service.make c backend pins metrics clock = .ok s₀)
    (hstore : store.Holds ⟨m, 0, []⟩) (hrun : Run (begin s₀ store) past u)
    (htime : Timely m past) (hfine : NoStoreFails past)
    (hroom : Service.HasRoom s₀.workers.bus.nextId (past.map Moment.served)) (hidle : u.Idle) :
    ∃ l es, Repository.Tracks m u.store l ∧
      es = Service.history Service.Moment.events (past.map Moment.served) ∧
      ∀ r ∈ l.records, r.isLive = true →
        (∀ k ∈ u.service.roster.members, k.node.address ≠ r.address) →
        (∃ front e back, es = front ++ e :: back ∧ e.node.address = r.address ∧
          (∀ d ∈ back, d.node.address ≠ r.address) ∧ (r.status = .unknown ↔ e.kind = .lost) ∧
          (e.kind ≠ .lost → ∃ d ∈ back, d.kind = .updated ∧ d.node.id = e.node.id)) ∧
        ((∀ d ∈ es, ∀ e ∈ es, d.node.id = e.node.id → d.node.address = e.node.address) →
          r.status = .unknown) := by
  obtain ⟨l, htracks, hmarks⟩ := hrun.marks_tried htime ⟨hstore, Ledger.sound_nil m, rfl⟩ hfine
  rw [hrun.tried_eq_events hmake hroom hidle] at hmarks
  obtain ⟨hdistinct, hreplay⟩ := hrun.replay? hmake
  refine ⟨l, _, htracks, rfl, fun r hr hlive habsent => ?_⟩
  obtain ⟨e, hlast, hiff⟩ := hmarks _ r (htracks.2.1.orderly.liveAt_of_mem hr hlive rfl)
  obtain ⟨front, back, hes, haddress, hback⟩ := lastAt_split hlast
  have hmoved : e.kind ≠ .lost → ∃ d ∈ back, d.kind = .updated ∧ d.node.id = e.node.id := by
    intro hseen
    rw [hes, ← List.singleton_append, ← List.append_assoc, Picture.replay?_append] at hreplay
    obtain ⟨p, hp, hrest⟩ := Option.bind_eq_some_iff.mp hreplay
    rw [Picture.replay?_concat] at hp
    obtain ⟨q, -, he⟩ := Option.bind_eq_some_iff.mp hp
    have hdata : p e.node.id = some e.node.data := by
      rw [Picture.after?_eq_some he, Picture.set, if_pos rfl, if_neg hseen]
    rcases Picture.next_of_replay? hrest hdata with hstays | ⟨d, hd, hid, hkind | ⟨-, hsame⟩⟩
    · -- the identity would still be a member at that address
      obtain ⟨k, hk, hkdata⟩ := Option.map_eq_some_iff.mp hstays
      have hkaddress : k.node.address = e.node.address := congrArg (fun d => d.2.1) hkdata
      exact absurd (hkaddress.trans haddress) (habsent k (Roster.find?_some hk).1)
    · exact ⟨d, hd, hkind, hid⟩
    · -- it would be lost where it was last seen
      have hdaddress : d.node.address = e.node.address := congrArg (fun d => d.2.1) hsame
      exact absurd (hdaddress.trans haddress) (hback d hd)
  refine ⟨⟨front, e, back, hes, haddress, hback, hiff, hmoved⟩, fun hfixed => ?_⟩
  by_contra hstatus
  obtain ⟨d, hd, -, hid⟩ := hmoved fun hlost => hstatus (hiff.mpr hlost)
  exact hback d hd ((hfixed d (by simp [hes, hd]) e (by simp [hes]) hid).trans haddress)

/-- What is found in a store stands in its ledger. -/
lemma found?_eq (h : Repository.Tracks m u.store l) (hnow : m.Keeps default) (a : Net.Address) :
    u.found? a = liveAt l.records a := by
  obtain ⟨ha, -⟩ := Repository.alike hnow (.findByAddress a) u.store l trivial h
  rw [found?, ha]
  rfl

/-- A node is seen, given up and swept. -/
theorem absent_records_for_one_node : ∃ past u l, Run (begin fresh .inMemory) past u ∧
    Repository.Tracks (.memory .same) u.store l ∧ u.service.roster.members = [] ∧
    ∃ r ∈ l.records, r.isLive = true ∧ r.status = .unknown := by
  have hplay : ∃ x ∈ (begin fresh .inMemory).play? []
      (look 0 [neighbour "a"] 0 ++ upkeep ++ [.serve (.sweep 90000 .same), .serve .tell] ++ upkeep),
      NoneFails x.1 ∧ Service.HasRoom 1 (x.1.map Moment.served) ∧ x.2.Idle ∧
      x.2.service.roster.members = [] ∧
      (∀ d ∈ Service.history Service.Moment.events (x.1.map Moment.served),
        d.node = neighbour "a") ∧
      (x.2.found? (neighbour "a").address).isSome = true := by
    decide +kernel
  obtain ⟨⟨past, u⟩, hplay, hfine, hroom, hidle, hgone, hone, hfound⟩ := hplay
  have hrun := Run.start.play? hplay
  obtain ⟨l, es, htracks, rfl, h⟩ := absent_records make_fresh Repository.holds_inMemory hrun
    (fun _ _ => ⟨fun _ _ _ _ => trivial, fun _ _ => trivial⟩) hfine.noStoreFails hroom hidle
  obtain ⟨r, hr⟩ := Option.isSome_iff_exists.mp hfound
  rw [found?_eq htracks trivial] at hr
  obtain ⟨hmem, hlive, -⟩ := liveAt_eq_some hr
  have habsent : ∀ k ∈ u.service.roster.members, k.node.address ≠ r.address := by
    rw [hgone]
    simp
  refine ⟨past, u, l, hrun, htracks, hgone, r, hmem, hlive, (h r hmem hlive habsent).2 ?_⟩
  intro d hd e he _
  rw [hone d hd, hone e he]

/-! ### A node that moves -/

/-- The node at another address. -/
def moved : Observation := { neighbour "a" with address := .v4 10 0 0 2 }

/-- **A record of nobody that is not marked**: the node was seen at one address and then at
another, and all that was told is reconciled. -/
theorem unmarked_while_absent : ∃ past u, Run (begin fresh .inMemory) past u ∧ NoneFails past ∧
    Service.HasRoom 1 (past.map Moment.served) ∧ u.Idle ∧
    (∀ k ∈ u.service.roster.members, k.node.address ≠ (neighbour "a").address) ∧
    ∃ r ∈ u.found? (neighbour "a").address, r.isLive = true ∧ r.status ≠ .unknown := by
  have hplay : ∃ x ∈ (begin fresh .inMemory).play? []
      (look 0 [neighbour "a"] 0 ++ upkeep ++ look 1 [moved] 10000 ++ upkeep),
      NoneFails x.1 ∧ Service.HasRoom 1 (x.1.map Moment.served) ∧ x.2.Idle ∧
      (∀ k ∈ x.2.service.roster.members, k.node.address ≠ (neighbour "a").address) ∧
      ∃ r ∈ x.2.found? (neighbour "a").address, r.isLive = true ∧ r.status ≠ .unknown := by
    decide +kernel
  obtain ⟨⟨past, u⟩, hplay, hrest⟩ := hplay
  exact ⟨past, u, Run.start.play? hplay, hrest⟩

end NodeWatch.Upkeep
