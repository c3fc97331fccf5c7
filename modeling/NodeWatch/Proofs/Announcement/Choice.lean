import NodeWatch.Proofs.Announcement.Heard

/-!
The choice among the addresses of a service record.

The addresses are a set that is enumerated in any order. Only the family of the one that is chosen
is settled: among several of it the order decides, so that the same record can be observed at one
address now and at another one later.
-/

namespace NodeWatch

/-! ### Attributes, address and time -/

/-- Attributes have nothing to do with address and time. -/
lemma Observation.withAttributes_at (o : Observation) (ps : List (String × String))
    (a : Net.Address) (t : Time.Instant) :
    { o with address := a, lastSeen := t }.withAttributes ps =
      { o.withAttributes ps with address := a, lastSeen := t } := by
  induction ps generalizing o with
  | nil => rfl
  | cons p ps ih => exact ih (o.withAttribute p.1 p.2)

namespace Backend.Broadcast

/-- The addresses among which the order decides: those of the first family, if there are any. -/
def eligible (as : List Net.Address) : List Net.Address :=
  if as.any (·.isV4) then as.filter (·.isV4) else as

/-- What is observed of a record at one of its addresses. -/
def observedAt (s : ServiceRecord) (listenType : String) (now : Time.Instant) (a : Net.Address) :
    Observation :=
  (((Observation.bare s.fullname (String.ofList (instanceOf s listenType)) a s.port now)
    |>.withServiceType (String.ofList (tagOf listenType))).withAttributes s.properties)
    |>.withAttribute Observation.Key.discovery.text "broadcast"

variable {s : ServiceRecord} {listenType : String} {now later : Time.Instant} {a b : Net.Address}
  {as : List Net.Address}

lemma observe_enumerated (s : ServiceRecord) (as : List Net.Address) (listenType : String)
    (now : Time.Instant) : observe { s with addresses := as } listenType now =
      (addressOf as).map (observedAt s listenType now) := rfl

/-- Nothing else depends on address and time. -/
lemma observedAt_eq (s : ServiceRecord) (listenType : String) (now later : Time.Instant)
    (a b : Net.Address) : observedAt s listenType later b =
      { observedAt s listenType now a with address := b, lastSeen := later } := by
  have h := Observation.withAttributes_at
    ((Observation.bare s.fullname (String.ofList (instanceOf s listenType)) a s.port now)
      |>.withServiceType (String.ofList (tagOf listenType))) s.properties b later
  exact congrArg (Observation.withAttribute · Observation.Key.discovery.text "broadcast") h

@[simp] lemma observedAt_address : (observedAt s listenType now a).address = a :=
  congrArg Observation.address (Observation.withAttributes_frame
    ((Observation.bare s.fullname (String.ofList (instanceOf s listenType)) a s.port now)
      |>.withServiceType (String.ofList (tagOf listenType))) s.properties)

lemma differsFrom_observedAt : (observedAt s listenType now a).differsFrom
    (observedAt s listenType later b) = true ↔ a ≠ b := by
  rw [observedAt_eq s listenType now later a b]
  simp [Observation.differsFrom, Observation.data]

/-! ### The address that is chosen -/

lemma any_isV4_of_perm {bs : List Net.Address} (h : as.Perm bs) :
    as.any (·.isV4) = bs.any (·.isV4) := by
  rw [Bool.eq_iff_iff, List.any_eq_true, List.any_eq_true]
  exact exists_congr fun x => and_congr_left' h.mem_iff

lemma mem_eligible_iff_of_perm {bs : List Net.Address} (h : as.Perm bs) :
    a ∈ eligible as ↔ a ∈ eligible bs := by
  unfold eligible
  rw [any_isV4_of_perm h]
  split
  · exact (h.filter _).mem_iff
  · exact h.mem_iff

lemma mem_eligible_of_addressOf (h : addressOf as = some a) : a ∈ eligible as := by
  unfold addressOf at h
  unfold eligible
  cases hfind : as.find? (·.isV4) with
  | some x =>
    rw [hfind] at h
    obtain rfl := Option.some.inj h
    have hx := List.mem_of_find?_eq_some hfind
    have hv4 := List.find?_some hfind
    rw [if_pos (List.any_eq_true.mpr ⟨x, hx, hv4⟩)]
    exact List.mem_filter.mpr ⟨hx, hv4⟩
  | none =>
    rw [hfind] at h
    have hnone : as.any (·.isV4) = false :=
      List.any_eq_false.mpr fun x hx => List.find?_eq_none.mp hfind x hx
    rw [hnone]
    exact List.mem_of_head? h

/-- Each eligible address comes first in some order. -/
lemma exists_perm_of_mem_eligible (h : a ∈ eligible as) :
    ∃ bs : List Net.Address, bs.Perm as ∧ addressOf bs = some a := by
  have hmem : a ∈ as := by
    unfold eligible at h
    split at h
    · exact List.mem_of_mem_filter h
    · exact h
  refine ⟨a :: as.erase a, (List.perm_cons_erase hmem).symm, ?_⟩
  unfold addressOf
  cases hv4 : a.isV4 with
  | true => rw [List.find?_cons_of_pos hv4]; rfl
  | false =>
    -- If there were one of the first family, only such addresses would be eligible.
    have hnone : ∀ x ∈ as, ¬ x.isV4 = true := by
      intro x hx hxv4
      rw [eligible, if_pos (List.any_eq_true.mpr ⟨x, hx, hxv4⟩)] at h
      rw [(List.mem_filter.mp h).2] at hv4
      cases hv4
    have hfind : (a :: as.erase a).find? (·.isV4) = none :=
      List.find?_eq_none.mpr fun x hx =>
        hnone x ((List.perm_cons_erase hmem).mem_iff.mpr hx)
    rw [hfind]
    rfl

/-! ### What is observed -/

/-- The record is observed so if its addresses are enumerated in some order. -/
def MayObserve (s : ServiceRecord) (listenType : String) (now : Time.Instant) (o : Observation) :
    Prop :=
  ∃ as : List Net.Address, as.Perm s.addresses ∧
    observe { s with addresses := as } listenType now = some o

lemma mayObserve_iff {o : Observation} : MayObserve s listenType now o ↔
    ∃ a ∈ eligible s.addresses, o = observedAt s listenType now a := by
  constructor
  · rintro ⟨as, hperm, ho⟩
    rw [observe_enumerated] at ho
    obtain ⟨a, ha, rfl⟩ := Option.map_eq_some_iff.mp ho
    exact ⟨a, (mem_eligible_iff_of_perm hperm).mp (mem_eligible_of_addressOf ha), rfl⟩
  · rintro ⟨a, ha, rfl⟩
    obtain ⟨as, hperm, has⟩ := exists_perm_of_mem_eligible ha
    refine ⟨as, hperm, ?_⟩
    rw [observe_enumerated, has]
    rfl

/-- Without an address nothing is observed, in whatever order. -/
lemma observe_eq_none_iff (has : as.Perm s.addresses) :
    observe { s with addresses := as } listenType now = none ↔ s.addresses = [] := by
  rw [observe_enumerated, Option.map_eq_none_iff]
  constructor
  · intro hnone
    by_contra hne
    have hsome : as ≠ [] := fun hempty => hne (has.symm.trans (hempty ▸ .nil)).eq_nil
    obtain ⟨x, hx, -⟩ := Announcement.exists_addressOf hsome
    rw [hnone] at hx
    cases hx
  · intro hempty
    rw [hempty] at has
    rw [has.eq_nil]
    rfl

/-- **The order of the addresses decides at which one a record is observed.** It is one of the first
family if there are such, each of these may be it, and but for the address nothing depends on the
order. So a record is observed alike in all orders if and only if there is no choice. -/
theorem observed_in_any_order (s : ServiceRecord) (listenType : String) :
    (∀ as, as.Perm s.addresses → ∀ now,
      observe { s with addresses := as } listenType now = none ↔ s.addresses = []) ∧
    (∀ now o, MayObserve s listenType now o → o.address ∈ eligible s.addresses) ∧
    (∀ a ∈ eligible s.addresses, ∀ now, ∃ o, MayObserve s listenType now o ∧ o.address = a) ∧
    (∀ now later o p, MayObserve s listenType now o → MayObserve s listenType later p →
      p = { o with address := p.address, lastSeen := later }) ∧
    ((∀ now later o p, MayObserve s listenType now o → MayObserve s listenType later p →
        o.differsFrom p = false) ↔
      ∀ a ∈ eligible s.addresses, ∀ b ∈ eligible s.addresses, a = b) := by
  refine ⟨fun as has now => observe_eq_none_iff has, fun now o ho => ?_, fun a ha now => ?_,
    fun now later o p ho hp => ?_, fun h a ha b hb => ?_, fun h now later o p ho hp => ?_⟩
  · obtain ⟨a, ha, rfl⟩ := mayObserve_iff.mp ho
    rwa [observedAt_address]
  · exact ⟨_, mayObserve_iff.mpr ⟨a, ha, rfl⟩, observedAt_address⟩
  · obtain ⟨a, -, rfl⟩ := mayObserve_iff.mp ho
    obtain ⟨b, -, rfl⟩ := mayObserve_iff.mp hp
    rw [observedAt_address]
    exact observedAt_eq s listenType now later a b
  · have hsame := h default default _ _ (mayObserve_iff.mpr ⟨a, ha, rfl⟩)
      (mayObserve_iff.mpr ⟨b, hb, rfl⟩)
    by_contra hne
    rw [differsFrom_observedAt.mpr hne] at hsame
    cases hsame
  · obtain ⟨a, ha, rfl⟩ := mayObserve_iff.mp ho
    obtain ⟨b, hb, rfl⟩ := mayObserve_iff.mp hp
    exact Bool.eq_false_iff.mpr fun hdiffers => differsFrom_observedAt.mp hdiffers (h a ha b hb)

/-- A node at the addresses. -/
def homed (as : List Net.Address) : ServiceRecord where
  typeDomain := "_pifleet._tcp.local."
  subtype := none
  fullname := "n1._pifleet._tcp.local."
  host := "n1.local."
  addresses := as
  port := 9091
  properties := []

/-- One address of each family: the order does not count. -/
theorem observed_alike_at_both_families :
    let s := homed [.v6 (.replicate 8 1), .v4 10 0 0 1]
    ∃ o, MayObserve s s.typeDomain default o ∧ o.address = .v4 10 0 0 1 ∧
      ∀ later p, MayObserve s s.typeDomain later p → o.differsFrom p = false := by
  intro s
  have heligible : eligible s.addresses = [.v4 10 0 0 1] := by decide
  obtain ⟨-, -, hall, -, halike⟩ := observed_in_any_order s s.typeDomain
  obtain ⟨o, ho, ha⟩ := hall (.v4 10 0 0 1) (by simp [heligible]) default
  refine ⟨o, ho, ha, fun later p hp => halike.mpr ?_ default later o p ho hp⟩
  simp [heligible]

/-- **The same record is not observed alike** if it has two addresses of the first family. -/
theorem observed_at_either_address :
    let s := homed [.v4 10 0 0 1, .v4 10 0 0 2]
    let t := { s with addresses := [.v4 10 0 0 2, .v4 10 0 0 1] }
    t.addresses.Perm s.addresses ∧ ∃ o p, observe s s.typeDomain default = some o ∧
      observe t s.typeDomain default = some p ∧ o.address = .v4 10 0 0 1 ∧
      p.address = .v4 10 0 0 2 ∧ o.differsFrom p = true := by
  intro s t
  exact ⟨.swap _ _ _, observedAt s s.typeDomain default (.v4 10 0 0 1),
    observedAt s s.typeDomain default (.v4 10 0 0 2), rfl, rfl, observedAt_address,
    observedAt_address, differsFrom_observedAt.mpr (by decide)⟩

end Backend.Broadcast

end NodeWatch
