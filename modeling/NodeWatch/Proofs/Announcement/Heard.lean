import NodeWatch.Announcement
import NodeWatch.Backend.Broadcast
import NodeWatch.Proofs.Attributes
import NodeWatch.Proofs.Observation
import NodeWatch.Proofs.ServiceRecord

/-!
What is heard of an announcement.

A record tells its addresses and its properties in any order. What a listener makes of it does not
depend on that order but for the choice among addresses of one family.
-/

namespace NodeWatch

open Text

/-! ### Records of announcements -/

namespace Announcement

open ServiceRecord Backend.Broadcast

variable {a : Announcement} {r : ServiceRecord} {as : List Net.Address}
  {ps : List (String × String)}

/-- The parts of a record that come from the announcement. -/
structure Records (a : Announcement) (r : ServiceRecord) : Prop where
  named : isBlankText a.instanceName = false
  fullname : r.fullname = a.instanceName ++ "." ++ mainType a.serviceTypeDomain
  host : r.host = hostName a.host
  addresses : r.addresses = distinct a.addresses
  port : r.port = a.port
  properties : r.properties = a.wireProperties

lemma records_of_ok (h : a.serviceRecord = .ok r) : Records a r := by
  unfold serviceRecord named at h
  split at h
  · simp at h
  next hname =>
    split at h
    · simp at h
    · split at h
      · simp at h
      next s hs =>
        split at hs
        · simp at hs
        · obtain rfl := Except.ok.inj hs
          obtain rfl := Except.ok.inj h
          exact ⟨by simpa using hname, rfl, rfl, rfl, rfl, rfl⟩

lemma isKey_text (k : Observation.Key) : IsKey k.text := by
  cases k <;> decide

lemma exists_record (hname : isBlankText a.instanceName = false) (hport : a.port ≠ 0)
    (hkeys : ∀ p ∈ a.properties.entries, IsKey p.1) : ∃ r, a.serviceRecord = .ok r := by
  have hfault : keyFault? a.wireProperties = none := by
    refine keyFault?_eq_none fun p hp => ?_
    rcases Attributes.mem_insertInto hp with rfl | hp
    · exact isKey_text .ttl
    · exact hkeys p hp
  unfold serviceRecord named
  rw [hname, if_neg (by simp), if_neg hport, hfault]
  exact ⟨_, rfl⟩

/-! ### What is heard -/

/-- The address that is chosen is one of them, and of the first family if one is. -/
lemma exists_addressOf (h : as ≠ []) :
    ∃ x, addressOf as = some x ∧ x ∈ as ∧ ((∃ y ∈ as, y.isV4 = true) → x.isV4 = true) := by
  cases hfind : as.find? (·.isV4) with
  | some x =>
    exact ⟨x, by rw [addressOf, hfind]; rfl, List.mem_of_find?_eq_some hfind,
      fun _ => List.find?_some hfind⟩
  | none =>
    obtain ⟨x, rest, rfl⟩ := List.exists_cons_of_ne_nil h
    refine ⟨x, by rw [addressOf, hfind]; rfl, List.mem_cons_self, fun ⟨y, hy, hv4⟩ => ?_⟩
    exact absurd hv4 (List.find?_eq_none.mp hfind y hy)

/-- What an observation of an announcement tells, listening for a type. -/
structure Hears (a : Announcement) (r : ServiceRecord) (listenType : String) (o : Observation) :
    Prop where
  id : o.id = r.fullname
  name : o.name = String.ofList (Backend.Broadcast.instanceOf r listenType)
  address : o.address ∈ a.addresses
  isV4 : (∃ x ∈ a.addresses, x.isV4 = true) → o.address.isV4 = true
  port : o.port = a.port
  serviceType : o.serviceType = String.ofList (tagOf listenType)
  metadata : o.metadata = (a.properties.insert Observation.Key.ttl.text
    (String.ofList (decimal a.ttlSecs.toNat))).insert Observation.Key.discovery.text "broadcast"
  capable : o.Capable

/-- **Whatever the order in which a record is told, the announcement is heard.** -/
lemma Records.hears (h : Records a r) (hsorted : a.properties.Sorted)
    (haddresses : a.addresses ≠ []) (has : as.Perm r.addresses) (hps : ps.Perm r.properties)
    (listenType : String) (now : Time.Instant) :
    ∃ o, observe { r with addresses := as, properties := ps } listenType now = some o ∧
      Hears a r listenType o := by
  have hmem : ∀ x, x ∈ as ↔ x ∈ a.addresses := fun x => by
    rw [has.mem_iff, h.addresses, mem_distinct]
  have hne : as ≠ [] := by
    obtain ⟨x, rest, hx⟩ := List.exists_cons_of_ne_nil haddresses
    exact List.ne_nil_of_mem ((hmem x).mpr (by simp [hx]))
  obtain ⟨x, hchosen, hx, hv4⟩ := exists_addressOf hne
  let o₀ := (Observation.bare r.fullname
      (String.ofList (Backend.Broadcast.instanceOf r listenType)) x r.port now)
    |>.withServiceType (String.ofList (tagOf listenType))
  have hcapable : o₀.Capable := rfl
  have hframe := o₀.withAttributes_frame ps
  have haddress : (o₀.withAttributes ps).address = x := congrArg Observation.address hframe
  have hport : (o₀.withAttributes ps).port = r.port := congrArg Observation.port hframe
  have hobserve : observe { r with addresses := as, properties := ps } listenType now =
      some ((o₀.withAttributes ps).withAttribute Observation.Key.discovery.text "broadcast") := by
    rw [observe, hchosen]
    rfl
  rw [h.properties] at hps
  have hall : Attributes.ofList ps =
      a.properties.insert Observation.Key.ttl.text (String.ofList (decimal a.ttlSecs.toNat)) :=
    Attributes.ofList_of_perm (hsorted.insert _ _) hps
  refine ⟨_, hobserve, ⟨congrArg Observation.id hframe, congrArg Observation.name hframe, ?_,
    fun hsome => ?_, hport.trans h.port, congrArg Observation.serviceType hframe, ?_,
    (hcapable.withAttributes ps).withAttribute _ _⟩⟩
  · show (o₀.withAttributes ps).address ∈ a.addresses
    rw [haddress]
    exact (hmem x).mp hx
  · show (o₀.withAttributes ps).address.isV4 = true
    rw [haddress]
    obtain ⟨y, hy, hyv4⟩ := hsome
    exact hv4 ⟨y, (hmem y).mpr hy, hyv4⟩
  · show (o₀.withAttributes ps).metadata.insert _ _ = _
    have hmetadata : (o₀.withAttributes ps).metadata = Attributes.ofList ps :=
      o₀.withAttributes_metadata ps
    rw [hmetadata, hall]

end Announcement

end NodeWatch
