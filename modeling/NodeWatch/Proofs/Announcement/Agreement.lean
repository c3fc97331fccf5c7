import NodeWatch.Proofs.Announcement.Heard
import NodeWatch.Proofs.Config.Validity

/-!
Announcements and listeners of one configuration.

A listener cuts the type it listens for from the end of a full name, and its tag at the second
label. Both undo what was put together: a valid service type has two labels, and no subtype is cut
from a type unless a label of the domain asks for it.
-/

namespace NodeWatch

open Text

/-! ### Types that are listened for -/

namespace Config

variable {d : Discovery}

lemma exists_labels {s : List Char} (h : isServiceType s = true) :
    ∃ name, ∃ proto ∈ ["_tcp".toList, "_udp".toList],
      split '.' (dropEndWhile (· = '.') s) = ['_' :: name, proto] := by
  unfold isServiceType at h
  split at h
  next name proto hs =>
    simp only [Bool.and_eq_true, Bool.or_eq_true, decide_eq_true_eq] at h
    exact ⟨name, proto, by simpa using h.2, hs⟩
  next => simp at h

lemma Discovery.split_serviceTypeDomain (d : Discovery) :
    split '.' d.serviceTypeDomain = split '.' (dropEndWhile (· = '.') d.serviceType.toList) ++
      (split '.' (trimBy (· = '.') d.domain.toList) ++ [[]]) := by
  unfold serviceTypeDomain typeInDomain
  rw [List.append_assoc, List.cons_append, split_append, split_append]
  rfl

/-- The tag of a valid type is the type. -/
lemma Discovery.tagOf_serviceTypeDomain (h : d.fault? = none) :
    Backend.Broadcast.tagOf (String.ofList d.serviceTypeDomain) =
      dropEndWhile (· = '.') d.serviceType.toList := by
  obtain ⟨name, proto, -, hlabels⟩ := exists_labels (fault?_eq_none_iff.mp h).serviceType
  unfold Backend.Broadcast.tagOf
  rw [String.toList_ofList, split_serviceTypeDomain, List.take_left' (by rw [hlabels]; rfl),
    join_split]

lemma Discovery.mainType_serviceTypeDomain (h : d.fault? = none)
    (hsub : "_sub".toList ∉ split '.' d.domain.toList) :
    ServiceRecord.mainType (String.ofList d.serviceTypeDomain) =
      String.ofList d.serviceTypeDomain := by
  apply ServiceRecord.mainType_of_afterLast?
  apply ServiceRecord.afterLast?_eq_none
  obtain ⟨name, proto, hproto, hlabels⟩ := exists_labels (fault?_eq_none_iff.mp h).serviceType
  rw [String.toList_ofList, split_serviceTypeDomain, hlabels]
  intro hmem
  -- The name stands in front, where a label makes no subtype, and the last label is empty.
  have hcases : "_sub".toList = proto ∨
      "_sub".toList ∈ split '.' (trimBy (· = '.') d.domain.toList) := by
    simpa using hmem
  rcases hcases with rfl | hdomain
  · revert hproto
    decide
  · exact hsub (mem_split_of_mem_trimBy hdomain)

end Config

namespace Announcement

open ServiceRecord Backend.Broadcast

variable {c : Config.Announce} {d : Config.Discovery} {m : Machine} {a : Announcement}

/-! ### Announcements of a machine -/

/-- The announcements of a machine: of itself, with properties set and addresses given. -/
inductive Describes (c : Config.Announce) (d : Config.Discovery) (m : Machine) :
    Announcement → Prop where
  | machine : Describes c d m (ofMachine c d m)
  | withProperty {a : Announcement} (h : Describes c d m a) (k v : String) :
    Describes c d m (a.withProperty k v)
  | withAddresses {a : Announcement} (h : Describes c d m a) (as : List Net.Address) :
    Describes c d m (a.withAddresses as)

/-- What holds of no properties and stays when one with a meaning is set holds of those of a
machine. -/
lemma propertiesOf_induction {motive : Attributes → Prop} (empty : motive .empty)
    (insert : ∀ (props : Attributes) (k : Observation.Key) (v : String),
      motive props → motive (props.insert k.text v))
    (c : Config.Announce) (d : Config.Discovery) (m : Machine) : motive (propertiesOf c d m) := by
  have hnamed := insert _ .arch m.architecture
    (insert _ .name (Announcement.instanceOf c d m) empty)
  have hlisted (props : Attributes) (h : motive props) : motive
      (if c.capabilities = [] then props
      else props.insert Observation.Key.capabilities.text (joinWith "," c.capabilities)) := by
    split
    · exact h
    · exact insert _ .capabilities _ h
  unfold propertiesOf
  cases m.model with
  | none => exact hlisted _ (insert _ .version c.version hnamed)
  | some model => exact hlisted _ (insert _ .version c.version (insert _ .model model hnamed))

lemma sorted_propertiesOf (c : Config.Announce) (d : Config.Discovery) (m : Machine) :
    (propertiesOf c d m).Sorted :=
  propertiesOf_induction Attributes.sorted_empty (fun _ _ _ h => h.insert _ _) c d m

lemma Describes.sorted (h : Describes c d m a) : a.properties.Sorted := by
  induction h with
  | machine => exact sorted_propertiesOf c d m
  | withProperty _ k v ih => exact ih.insert k v
  | withAddresses _ _ ih => exact ih

/-- Only properties and addresses are set. -/
lemma Describes.frame (h : Describes c d m a) :
    a = { ofMachine c d m with addresses := a.addresses, properties := a.properties } := by
  induction h with
  | machine => rfl
  | withProperty _ k v ih => exact congrArg (·.withProperty k v) ih
  | withAddresses _ as ih => exact congrArg (·.withAddresses as) ih

/-- A name that is made up holds a hyphen. -/
lemma isBlankText_instanceOf (c : Config.Announce) (d : Config.Discovery) (m : Machine) :
    isBlankText (Announcement.instanceOf c d m) = false := by
  unfold Announcement.instanceOf
  cases hname : c.instanceName.filter fun n => !isBlankText n with
  | some n => simpa using (Option.filter_eq_some_iff.mp hname).2
  | none =>
    have hhyphen : isBlank '-' = false := by decide
    simp [isBlankText, hhyphen]

lemma serviceTypeDomain_ofMachine (c : Config.Announce) (d : Config.Discovery) (m : Machine) :
    (ofMachine c d m).serviceTypeDomain = String.ofList d.serviceTypeDomain := by
  apply String.toList_injective
  unfold serviceTypeDomain Config.Discovery.serviceTypeDomain Config.typeInDomain ofMachine
  simp

/-- **A listener of the same configuration hears what is announced.** The record can be made, and
in whatever order its addresses and properties are told, all of the announcement is told. -/
theorem listener_agrees (h : Describes c d m a) (hvalid : d.fault? = none)
    (hsub : "_sub".toList ∉ split '.' d.domain.toList) (haddresses : a.addresses ≠ [])
    (hport : a.port ≠ 0) (hkeys : ∀ p ∈ a.properties.entries, IsKey p.1) (now : Time.Instant) :
    a.serviceTypeDomain = String.ofList d.serviceTypeDomain ∧
    ∃ r, a.serviceRecord = .ok r ∧
      addressesOf (joinWith "," (a.addresses.map Net.Address.toString)) = .ok r.addresses ∧
      ∀ as ps, as.Perm r.addresses → ps.Perm r.properties →
        ∃ o, observe { r with addresses := as, properties := ps }
            (String.ofList d.serviceTypeDomain) now = some o ∧
          o.id = a.fullname ∧ o.port = a.port ∧ o.serviceType = a.serviceType ∧
          o.address ∈ a.addresses ∧
          ((∃ x ∈ a.addresses, x.isV4 = true) → o.address.isV4 = true) ∧
          o.metadata = (a.properties.insert Observation.Key.ttl.text
            (String.ofList (decimal a.ttlSecs.toNat))).insert
              Observation.Key.discovery.text "broadcast" := by
  have htype : a.serviceTypeDomain = String.ofList d.serviceTypeDomain :=
    (congrArg Announcement.serviceTypeDomain h.frame).trans (serviceTypeDomain_ofMachine c d m)
  have hname : a.instanceName = Announcement.instanceOf c d m :=
    congrArg Announcement.instanceName h.frame
  have htag : a.serviceType = String.ofList (dropEndWhile (· = '.') d.serviceType.toList) :=
    congrArg Announcement.serviceType h.frame
  have hnamed : isBlankText a.instanceName = false := by
    rw [hname]
    exact isBlankText_instanceOf c d m
  obtain ⟨r, hr⟩ := exists_record hnamed hport hkeys
  have hrecords := records_of_ok hr
  have hfullname : r.fullname = a.fullname := by
    rw [hrecords.fullname, htype, Config.Discovery.mainType_serviceTypeDomain hvalid hsub]
    rw [fullname, htype]
  refine ⟨htype, r, hr, ?_, fun as ps has hps => ?_⟩
  · rw [addressesOf_joinWith, hrecords.addresses]
  · obtain ⟨o, ho, hears⟩ := hrecords.hears h.sorted haddresses has hps
      (String.ofList d.serviceTypeDomain) now
    refine ⟨o, ho, hears.id.trans hfullname, hears.port, ?_, hears.address, hears.isV4,
      hears.metadata⟩
    rw [hears.serviceType, Config.Discovery.tagOf_serviceTypeDomain hvalid, htag]

/-- Told backwards, with an address of either family, the kitchen is still heard. -/
theorem listener_agrees_in_kitchen :
    ∃ a r o, Describes { instanceName := some "kitchen" } {} ⟨"pi-4", "aarch64", none⟩ a ∧
      a.addresses.length = 2 ∧ a.serviceRecord = .ok r ∧
      observe { r with addresses := r.addresses.reverse, properties := r.properties.reverse }
        "_pifleet._tcp.local." (.ofSeconds 0) = some o ∧
      o.id = "kitchen._pifleet._tcp.local." ∧ o.port = 9091 ∧ o.serviceType = "_pifleet._tcp" ∧
      o.address = .v4 10 0 0 1 ∧ o.metadata.get? "rack" = some "2" ∧
      o.metadata.get? "ttl" = some "120" := by
  let v6 : Net.Address := .v6 #v[0xfe80, 0, 0, 0, 0, 0, 0, 1]
  let v4 : Net.Address := .v4 10 0 0 1
  have h : Describes { instanceName := some "kitchen" } {} ⟨"pi-4", "aarch64", none⟩ _ :=
    (Describes.machine.withProperty "rack" "2").withAddresses [v6, v4]
  obtain ⟨-, r, hr, -, hears⟩ := listener_agrees h (by decide) (by decide)
    (List.cons_ne_nil _ _) (by decide) (by decide +kernel) (.ofSeconds 0)
  obtain ⟨o, ho, hid, hport, htype, haddress, hv4, hmetadata⟩ :=
    hears _ _ (List.reverse_perm _) (List.reverse_perm _)
  refine ⟨_, r, o, h, rfl, hr, ho, hid.trans (by decide +kernel), hport,
    htype.trans (by decide +kernel), ?_, by rw [hmetadata]; decide +kernel,
    by rw [hmetadata]; decide +kernel⟩
  have hfirst := hv4 ⟨v4, by decide +kernel, rfl⟩
  have hcases : o.address = v6 ∨ o.address = v4 := by
    simpa [withAddresses] using haddress
  rcases hcases with he | he
  · rw [he] at hfirst
    exact absurd hfirst (by decide)
  · exact he

end Announcement

end NodeWatch
