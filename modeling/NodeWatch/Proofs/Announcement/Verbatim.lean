import NodeWatch.Proofs.Announcement.Agreement
import NodeWatch.Proofs.Capabilities

/-!
What of an announcement is heard as it was configured.

A name comes back from the front of a full name, and a list of capabilities from a text with commas
between them. The name must not end like the front of the type, and no capability must hold what
stands between two of them.
-/

namespace NodeWatch

open Text

namespace Announcement

open ServiceRecord Backend.Broadcast

variable {c : Config.Announce} {d : Config.Discovery} {m : Machine} {a : Announcement}
  {r : ServiceRecord} {as : List Net.Address}

/-! ### Names -/

/-- A name that does not end with a dot is what precedes the type. -/
lemma Records.instanceOf_eq (h : Records a r) (hsub : subtype? a.serviceTypeDomain = none)
    (hdot : a.instanceName.toList.getLast? ≠ some '.') :
    Backend.Broadcast.instanceOf r a.serviceTypeDomain = a.instanceName.toList := by
  have hafter : afterLast? "._sub.".toList a.serviceTypeDomain.toList = none := by
    unfold subtype? at hsub
    split at hsub
    · simp at hsub
    next hnone => simpa using hnone
  have hfullname : r.fullname.toList =
      (a.instanceName.toList ++ ['.']) ++ a.serviceTypeDomain.toList := by
    rw [h.fullname, mainType_of_afterLast? hafter]
    simp
  -- What is cut besides the type is the dot between the two.
  have htrimmed : dropEndWhile (· = '.') (a.instanceName.toList ++ ['.']) =
      a.instanceName.toList := by
    rw [dropEndWhile_concat_pos (by simp)]
    refine dropEndWhile_of_getLast? fun ch hch => ?_
    have hne : ch ≠ '.' := by
      rintro rfl
      exact hdot hch
    simpa using hne
  have hnamed := h.named
  unfold Backend.Broadcast.instanceOf
  rw [hfullname, beforeEnd_append]
  simp only [Option.map_some, htrimmed]
  cases hname : a.instanceName.toList with
  | nil => simp [isBlankText, hname] at hnamed
  | cons _ _ => rfl

/-! ### Announcements with the properties of a machine -/

lemma isKey_of_mem_propertiesOf :
    ∀ p ∈ (propertiesOf c d m).entries, IsKey p.1 := by
  refine propertiesOf_induction (motive := fun props => ∀ p ∈ props.entries, IsKey p.1) ?_ ?_ c d m
  · simp [Attributes.empty]
  · intro props k v ih p hp
    rcases Attributes.mem_insertInto hp with rfl | hp
    · exact isKey_text k
    · exact ih p hp

lemma get?_propertiesOf_capabilities (c : Config.Announce) (d : Config.Discovery) (m : Machine) :
    (propertiesOf c d m).get? Observation.Key.capabilities.text =
      if c.capabilities = [] then none else some (joinWith "," c.capabilities) := by
  unfold propertiesOf
  by_cases hcaps : c.capabilities = []
  · simp only [if_pos hcaps]
    rw [Attributes.get?_insert_ne _ _ (by decide)]
    have hnamed : ((Attributes.empty.insert Observation.Key.name.text
        (Announcement.instanceOf c d m)).insert Observation.Key.arch.text m.architecture).get?
          Observation.Key.capabilities.text = none := by
      rw [Attributes.get?_insert_ne _ _ (by decide), Attributes.get?_insert_ne _ _ (by decide)]
      rfl
    cases m.model with
    | none => exact hnamed
    | some model => rw [Attributes.get?_insert_ne _ _ (by decide), hnamed]
  · simp only [if_neg hcaps]
    exact Attributes.get?_insert_self _ _ _

/-- **What is heard as it was configured.** Whatever ends in no dot is the name again, and the
capabilities are the parts between commas: those configured, if and only if none holds a comma. The
attribute that lists them is kept as it is. -/
theorem heard_as_configured (haddresses : as ≠ []) (hport : c.port ≠ 0) (now : Time.Instant) :
    ∃ r, ((ofMachine c d m).withAddresses as).serviceRecord = .ok r ∧
      ∀ as' ps, as'.Perm r.addresses → ps.Perm r.properties →
        ∃ o, observe { r with addresses := as', properties := ps }
            (ofMachine c d m).serviceTypeDomain now = some o ∧
          (subtype? (ofMachine c d m).serviceTypeDomain = none →
            (ofMachine c d m).instanceName.toList.getLast? ≠ some '.' →
            o.name = (ofMachine c d m).instanceName) ∧
          o.metadata.get? Observation.Key.capabilities.text =
            (if c.capabilities = [] then none else some (joinWith "," c.capabilities)) ∧
          o.capabilities = Capabilities.partsOf c.capabilities ∧
          ((∀ s ∈ c.capabilities, isBlankText s = false ∧ trimmed s = s) →
            c.capabilities.Nodup →
            (o.capabilities = c.capabilities ↔ ∀ s ∈ c.capabilities, ',' ∉ s.toList)) := by
  have h : Describes c d m ((ofMachine c d m).withAddresses as) :=
    Describes.machine.withAddresses as
  obtain ⟨r, hr⟩ := exists_record (a := (ofMachine c d m).withAddresses as)
    (isBlankText_instanceOf c d m) hport isKey_of_mem_propertiesOf
  have hrecords := records_of_ok hr
  refine ⟨r, hr, fun as' ps has hps => ?_⟩
  obtain ⟨o, ho, hears⟩ := hrecords.hears h.sorted haddresses has hps
    (ofMachine c d m).serviceTypeDomain now
  have hattribute : o.metadata.get? Observation.Key.capabilities.text =
      if c.capabilities = [] then none else some (joinWith "," c.capabilities) := by
    rw [hears.metadata, Attributes.get?_insert_ne _ _ (by decide),
      Attributes.get?_insert_ne _ _ (by decide)]
    exact get?_propertiesOf_capabilities c d m
  have hcapabilities : o.capabilities = Capabilities.partsOf c.capabilities := by
    rw [hears.capable, hattribute]
    by_cases hcaps : c.capabilities = []
    · rw [if_pos hcaps, hcaps]
      rfl
    · rw [if_neg hcaps]
      exact Capabilities.ofString_joinWith c.capabilities
  refine ⟨o, ho, fun hsub hdot => ?_, hattribute, hcapabilities, fun hwords hnodup => ?_⟩
  · calc o.name
        = String.ofList (Backend.Broadcast.instanceOf r (ofMachine c d m).serviceTypeDomain) :=
          hears.name
      _ = String.ofList (ofMachine c d m).instanceName.toList :=
          congrArg String.ofList (hrecords.instanceOf_eq hsub hdot)
      _ = (ofMachine c d m).instanceName := String.ofList_toList
  · rw [hcapabilities]
    exact Capabilities.partsOf_eq_self_iff hwords hnodup

theorem heard_as_configured_in_kitchen :
    ∃ r o, ((ofMachine { instanceName := some "kitchen", capabilities := ["gpio", "camera"] } {}
        ⟨"pi-4", "aarch64", none⟩).withAddresses [.v4 10 0 0 1]).serviceRecord = .ok r ∧
      observe r "_pifleet._tcp.local." (.ofSeconds 0) = some o ∧ o.name = "kitchen" ∧
      o.metadata.get? "capabilities" = some "gpio,camera" ∧
      o.capabilities = ["gpio", "camera"] := by
  obtain ⟨r, hr, hears⟩ := heard_as_configured
    (c := { instanceName := some "kitchen", capabilities := ["gpio", "camera"] }) (d := {})
    (m := ⟨"pi-4", "aarch64", none⟩) (List.cons_ne_nil (.v4 10 0 0 1) []) (by decide) (.ofSeconds 0)
  obtain ⟨o, ho, hname, hattribute, -, hcapabilities⟩ := hears _ _ (.refl _) (.refl _)
  exact ⟨r, o, hr, ho, hname (by decide +kernel) (by decide +kernel), hattribute,
    (hcapabilities (by decide +kernel) (by decide)).mpr (by decide)⟩

/-- The dot at the end of a name goes with the one in front of the type, a capability is cut at its
comma, and a domain with a subtype leaves no more than the host. -/
theorem not_heard_as_configured :
    (∃ r o, ((ofMachine { instanceName := some "kitchen." } {} ⟨"pi-4", "aarch64", none⟩)
        |>.withAddresses [.v4 10 0 0 1]).serviceRecord = .ok r ∧
      observe r "_pifleet._tcp.local." (.ofSeconds 0) = some o ∧ o.name = "kitchen") ∧
    (∃ r o, ((ofMachine { capabilities := ["gpio,camera"] } {} ⟨"pi-4", "aarch64", none⟩)
        |>.withAddresses [.v4 10 0 0 1]).serviceRecord = .ok r ∧
      observe r "_pifleet._tcp.local." (.ofSeconds 0) = some o ∧
      o.capabilities = ["gpio", "camera"]) ∧
    ∃ r o, ((ofMachine { instanceName := some "kitchen" } { domain := "a._sub.b" }
        ⟨"pi-4", "aarch64", none⟩).withAddresses [.v4 10 0 0 1]).serviceRecord = .ok r ∧
      observe r "_pifleet._tcp.a._sub.b." (.ofSeconds 0) = some o ∧ o.name = "pi-4.a._sub.b" := by
  refine ⟨⟨_, _, rfl, rfl, ?_⟩, ⟨_, _, rfl, rfl, ?_⟩, ⟨_, _, rfl, rfl, ?_⟩⟩ <;> decide +kernel

end Announcement

end NodeWatch
