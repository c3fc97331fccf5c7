import NodeWatch.Proofs.Reconcile.Idempotent

/-!
What each event does to the records, case by case.

A store is asked for all its records before and after. The record of the event is as the table
below says, and every other one is as it was.
-/

namespace NodeWatch.Store

/-! ### What a store tells -/

namespace Repository

/-- What is told under an identity. -/
def told (r : Repository) (id : String) : Except Error (Option Record) :=
  (r.step default (.get id)).1

/-- What is told of the live record at an address. -/
def toldAt (r : Repository) (a : Net.Address) : Except Error (Option Record) :=
  (r.step default (.findByAddress a)).1

/-- What is told of the live record with a name. -/
def toldNamed (r : Repository) (name : List Char) : Except Error (Option Record) :=
  (r.step default (.findByName (String.ofList name))).1

/-- A record is told under its identity and at its address, as it is read where it is kept. Under
every other identity is told what was told before. -/
structure Turns (m : Medium) (x : Record) (r r' : Repository) : Prop where
  here : r'.told x.id = m.tell? (some x)
  found : r'.toldAt x.address = m.tell? (some x)
  elsewhere : ∀ id, id ≠ x.id → r'.told id = r.told id

end Repository

/-- What is told of a record that was read is what is told of the record itself. -/
lemma Medium.tell_read (m : Medium) (r : Record) : m.tell (m.read r) = m.tell r := by
  cases m with
  | memory _ => rfl
  | table => exact Sql.Row.record_asRead r

/-- A record with plain years and small numbers is told as it is. -/
lemma Medium.tell_eq_self {m : Medium} {r : Record} (hread : m = .table → r.Readable)
    (hmemory : m = .table → r.memoryMb.toNat < 2 ^ 63)
    (hversion : m = .table → r.version < 2 ^ 63) : m.tell r = .ok r := by
  rw [tell_of_readable hread]
  cases m with
  | memory _ => rfl
  | table => exact congrArg Except.ok (Sql.asRead_eq_self (hmemory rfl) (hversion rfl))

namespace Stock

variable {s s' : Stock} {r x : Record} {f : Record → Record} {a : Net.Address} (h : s.Sound)
include h

lemma Sound.told (id : String) : s.store.told id = s.medium.tell? (withId s.records id) :=
  h.step_get default id

lemma Sound.toldAt (a : Net.Address) :
    s.store.toldAt a = s.medium.tell? (liveAt s.records a) := h.step_find default a

lemma Sound.toldNamed (name : List Char) : s.store.toldNamed name =
    s.medium.tell? (s.records.find? fun r => r.isLive && r.name = String.ofList name) := by
  have hadm : s.medium.Admits (s.stamp default) s.records (.findByName (String.ofList name)) :=
    trivial
  rw [Repository.toldNamed, store_step h hadm]
  rfl

/-- A record that is changed under its key. -/
lemma Sound.turns_amend (hs' : s'.Sound) (hmedium : s'.medium = s.medium)
    (hr : liveAt s.records a = some r) (hrecords : s'.records = amend r.id f s.records)
    (hkey : (f r).key = r.key) (hx : s.medium.tell (f r) = s.medium.tell x) (hid : x.id = r.id)
    (ha : x.address = a) : Repository.Turns s.medium x s.store s'.store := by
  obtain ⟨hmem, -, -⟩ := liveAt_eq_some hr
  obtain ⟨hhere, helse⟩ := h.orderly.withId_amend hmem hkey
  have hat := (h.orderly.liveAt_amend hr hkey).1
  have htell : s.medium.tell? (some (f r)) = s.medium.tell? (some x) := by
    rw [Medium.tell?, Medium.tell?, hx]
  constructor
  · rw [hs'.told, hmedium, hrecords, hid, hhere, htell]
  · rw [hs'.toldAt, hmedium, hrecords, ha, hat, htell]
  · intro id hne
    rw [hs'.told, h.told, hmedium, hrecords, helse id (hid ▸ hne)]

/-- A record that is added. -/
lemma Sound.turns_add (hs' : (s.add x).Sound) (hl : x.isLive = true)
    (hid : withId s.records x.id = none) (ha : liveAt s.records x.address = none) :
    Repository.Turns s.medium x s.store (s.add x).store := by
  have hwith : ∀ id, withId (s.add x).records id =
      (withId s.records id).or (if x.id = id then some x else none) := fun id => by
    simp only [add, withId, List.find?_append, List.find?_singleton, decide_eq_true_eq]
  constructor
  · rw [hs'.told, hwith, hid, if_pos rfl]
    rfl
  · rw [hs'.toldAt]
    simp only [add]
    rw [liveAt_append, ha, if_pos ⟨hl, rfl⟩]
    rfl
  · intro id hne
    rw [hs'.told, h.told, hwith, if_neg hne.symm, Option.or_none]
    rfl

end Stock

end NodeWatch.Store

namespace NodeWatch.Reconcile

open Store

/-! ### The table -/

/-- The observation tells an architecture or a model that the record does not have. -/
def Differs (o : Observation) (x : Record) : Prop :=
  o.architecture?.getD x.architecture ≠ x.architecture ∨ o.model?.getD x.model ≠ x.model

/-- There is more to write than a sign of life. -/
def IsNews (o : Observation) (x : Record) : Prop := x.status = .unknown ∨ Differs o x

instance (o : Observation) (x : Record) : Decidable (Differs o x) :=
  inferInstanceAs (Decidable (_ ∨ _))

instance (o : Observation) (x : Record) : Decidable (IsNews o x) :=
  inferInstanceAs (Decidable (_ ∨ _))

/-- The record of a node that is seen again. -/
def renewed (now : Time.Instant) (o : Observation) (x : Record) : Record :=
  { x with
    status := if x.status = .unknown then .discovered else x.status
    architecture := o.architecture?.getD x.architecture
    model := o.model?.getD x.model
    lastSeen := x.lastSeen.latest o.lastSeen
    version := if IsNews o x then x.version + 1 else x.version
    updatedAt := if IsNews o x then now else x.updatedAt }

def renewal (o : Observation) (x : Record) : Outcome :=
  if x.status = .unknown then .recovered else if Differs o x then .updated else .refreshed

/-- The record of a node that is seen for the first time. -/
def registered (now : Time.Instant) (id : String) (o : Observation) (name : List Char) :
    Record where
  id := id
  name := String.ofList name
  address := o.address
  mac := o.attribute? Observation.Key.mac.text
  status := .discovered
  role := .worker
  architecture := o.architecture?.getD unknownText
  model := o.model?.getD unknownText
  cpuCores := 0
  memoryMb := 0
  lastSeen := o.lastSeen
  clusterId := none
  createdAt := now
  updatedAt := now
  deletedAt := none
  version := 1

/-- The record of a node that is lost. -/
def givenUp (now : Time.Instant) (x : Record) : Record :=
  { x with status := .unknown, version := x.version + 1, updatedAt := now }

variable {o : Observation} {x : Record} {now : Time.Instant} {e : Event} {suffix : List Char}
  {s : Stock} {name : List Char}

/-! ### What is written is what the table says -/

lemma changes_of_not_news (h : ¬ IsNews o x) : changes x o = {} := by
  obtain ⟨hstatus, hdiffers⟩ := not_or.mp h
  obtain ⟨ha, hm⟩ := not_or.mp hdiffers
  have hfilter : ∀ {y? : Option String} {y : String}, y?.getD y = y → y?.filter (· ≠ y) = none := by
    intro y? y hy
    cases y? with
    | none => rfl
    | some z => simpa using hy
  simp only [changes, if_neg hstatus, hfilter (not_not.mp ha), hfilter (not_not.mp hm)]

/-- Only news are written. -/
lemma isEmpty_refreshPatch_iff : (refreshPatch x o).isEmpty = true ↔ ¬ IsNews o x := by
  constructor
  · rintro hsame (hstatus | ha | hm)
    · exact status_of_isEmpty hsame hstatus
    · exact ha (eq_of_isEmpty hsame).1
    · exact hm (eq_of_isEmpty hsame).2
  · exact fun h => isEmpty_refreshPatch (changes_of_not_news h)

lemma renewed_of_news (h : IsNews o x) : x.revised now (refreshPatch x o) = renewed now o x := by
  have hp : refreshPatch x o = { changes x o with lastSeen := some o.lastSeen } := by
    rcases refreshPatch_cases x o with ⟨-, hsame⟩ | ⟨hp, -⟩
    · exact absurd h (isEmpty_refreshPatch_iff.mp hsame)
    · exact hp
  have hstatus : (if x.status = .unknown then some Status.discovered else none).getD x.status =
      if x.status = .unknown then .discovered else x.status := by
    split <;> rfl
  rw [hp]
  simp only [Record.revised, Patch.apply, changes, renewed, if_pos h, getD_filter_ne, hstatus]
  rfl

lemma renewed_of_not_news (now : Time.Instant) (h : ¬ IsNews o x) :
    x.touched o.lastSeen = renewed now o x := by
  obtain ⟨hstatus, hdiffers⟩ := not_or.mp h
  obtain ⟨ha, hm⟩ := not_or.mp hdiffers
  simp only [renewed, if_neg hstatus, if_neg h, not_not.mp ha, not_not.mp hm]
  rfl

lemma renewal_of_news (h : IsNews o x) :
    (if (refreshPatch x o).status = some .discovered then Outcome.recovered else .updated) =
      renewal o x := by
  rw [refreshPatch_status, renewal]
  by_cases hstatus : x.status = .unknown
  · simp only [if_pos hstatus, if_true]
  · simp only [if_neg hstatus, if_pos (h.resolve_left hstatus)]
    rfl

lemma renewal_of_not_news (h : ¬ IsNews o x) : renewal o x = .refreshed := by
  obtain ⟨hstatus, hdiffers⟩ := not_or.mp h
  rw [renewal, if_neg hstatus, if_neg hdiffers]

/-! ### Where it is written -/

section

variable (hs : s.Sound)
include hs

/-- The record that is told at the address of the event. -/
lemma exists_of_toldAt (h : s.store.toldAt e.node.address = .ok (some x)) :
    ∃ r, liveAt s.records e.node.address = some r ∧ s.medium.tell r = .ok x := by
  rw [hs.toldAt] at h
  exact Medium.tell?_eq_ok_some h

lemma liveAt_of_toldAt (h : s.store.toldAt e.node.address = .ok none) :
    liveAt s.records e.node.address = none := by
  rw [hs.toldAt] at h
  exact Medium.tell?_eq_ok_none h

/-- A name that is not told is free. -/
lemma toldNamed_eq_none : s.store.toldNamed name = .ok none ↔ isNamed s.records name = false := by
  rw [hs.toldNamed, ← Bool.not_eq_true, isNamed_iff]
  constructor
  · intro h
    have hnone := List.find?_eq_none.mp (Medium.tell?_eq_ok_none h)
    exact fun ⟨r, hr, hl, hn⟩ => hnone r hr (by simp [hl, hn])
  · intro h
    have hnone : (s.records.find? fun r => r.isLive && r.name = String.ofList name) = none :=
      List.find?_eq_none.mpr fun r hr hrn => h ⟨r, hr, by simpa using hrn⟩
    rw [hnone]
    rfl

end

/-! ### Case by case -/

section

variable {r : Record} (hr : liveAt s.records e.node.address = some r)
  (ht : s.medium.tell r = .ok x)
include hr ht

lemma settle_news (he : Seen e) (h : IsNews e.node x) (hroom : x.version < maxVersion) :
    settle now e suffix s = (.ok (renewal e.node x), s.rewrite (renewed now e.node x)) := by
  have hchanges : (refreshPatch x e.node).isEmpty = false :=
    Bool.eq_false_iff.mpr fun hsame => isEmpty_refreshPatch_iff.mp hsame h
  rw [settle_of_revises hr ht (.brings he hchanges), revise, if_neg (Nat.not_le.mpr hroom),
    renewed_of_news h, renewal_of_news h]

lemma settle_sign (he : Seen e) (h : ¬ IsNews e.node x) :
    settle now e suffix s = (.ok (renewal e.node x), s.touch x.id e.node.lastSeen) := by
  simp only [settle, hr, Medium.tell?_ok ht, if_neg he, isEmpty_refreshPatch_iff.mpr h, if_true,
    renewal_of_not_news h]

lemma settle_lost (he : e.kind = .lost) (h : x.status = .unknown) :
    settle now e suffix s = (.ok .ignored, s) := by
  simp only [settle, hr, Medium.tell?_ok ht, if_pos he, if_pos h]

lemma settle_loss (he : e.kind = .lost) (h : x.status ≠ .unknown) (hroom : x.version < maxVersion) :
    settle now e suffix s = (.ok .markedUnknown, s.rewrite (givenUp now x)) := by
  rw [settle_of_revises hr ht (.marks he h), revise, if_neg (Nat.not_le.mpr hroom)]
  rfl

variable (hs : s.Sound)
include hs

/-- A record that is written under its key is what is told from then on. -/
lemma turns_rewrite {y : Record} (hkey : y.key = x.key) (hs' : (s.rewrite y).Sound) :
    Repository.Turns s.medium y s.store (s.rewrite y).store := by
  have hread := Medium.tell_eq_ok ht
  have hkey' : y.key = r.key := by rw [hkey, hread, Medium.read_key]
  have hid : y.id = r.id := congrArg Record.Key.id hkey'
  have ha : y.address = r.address := congrArg Record.Key.address hkey'
  refine hs.turns_amend (f := fun _ => y) hs' rfl hr ?_ hkey' rfl hid
    (ha.trans (liveAt_eq_some hr).2.2)
  rw [← hid]
  rfl

lemma turns_touch (t : Time.Instant) (hs' : (s.touch x.id t).Sound) :
    Repository.Turns s.medium (x.touched t) s.store (s.touch x.id t).store := by
  have hread := Medium.tell_eq_ok ht
  have hid : x.id = r.id := Medium.tell_id ht
  have ha : x.address = r.address := by rw [hread, Medium.read_address]
  refine hs.turns_amend (f := Record.touched t) hs' rfl hr (by rw [← hid]; rfl)
    (keepsKey_touched t r) ?_ hid (ha.trans (liveAt_eq_some hr).2.2)
  rw [hread, ← Medium.read_touched, Medium.tell_read]

end

section

variable (hr : liveAt s.records e.node.address = none)
include hr

lemma settle_nobody (he : e.kind = .lost) : settle now e suffix s = (.ok .ignored, s) := by
  simp only [settle, hr, Medium.tell?_none, if_pos he]

lemma settle_unnamed (he : Seen e)
    (h : ∀ name ∈ candidateNames e.node suffix, isNamed s.records name = true) :
    settle now e suffix s = (.error (.nameExhausted e.node.address), s) := by
  have htaken : firstFree? s.records (candidateNames e.node suffix) = none :=
    List.find?_eq_none.mpr fun name hname => by simp [h name hname]
  simp only [settle, hr, Medium.tell?_none, if_neg he, htaken]

lemma settle_new (now : Time.Instant) (he : Seen e)
    (h : ∃ name ∈ candidateNames e.node suffix, isNamed s.records name = false) :
    ∃ name ∈ candidateNames e.node suffix, isNamed s.records name = false ∧
      settle now e suffix s =
        (.ok .created, s.add (registered now (s.stamp now).id e.node name)) := by
  cases hfree : firstFree? s.records (candidateNames e.node suffix) with
  | none =>
    obtain ⟨name, hname, hn⟩ := h
    have := List.find?_eq_none.mp hfree name hname
    rw [hn] at this
    exact absurd rfl this
  | some name =>
    have hn : isNamed s.records name = false := by simpa using List.find?_some hfree
    refine ⟨name, List.mem_of_find?_eq_some hfree, hn, ?_⟩
    simp only [settle, hr, Medium.tell?_none, if_neg he, hfree]
    rfl

end

/-- **What an event does to the records.** If the node is seen, its record is renewed, or one is
registered under a free name; if it is lost its record is given up. Every other record is as it
was. -/
theorem reconcile_transitions {m : Medium} {r : Repository}
    {calls : List (Time.Instant × Operation)} (hr : r.Reached m calls) {c : Course} (hc : c.Calm)
    (e : Event) (suffix : List Char) :
    let y := c.run Repository.step (reconcile e suffix) r
    (Seen e → ∀ x, r.toldAt e.node.address = .ok (some x) →
      (IsNews e.node x → x.version < maxVersion) →
      y.1 = .ok (renewal e.node x) ∧
        ∃ k, Repository.Turns m (renewed (c k).1 e.node x) r y.2) ∧
    (Seen e → r.toldAt e.node.address = .ok none →
      (∃ name ∈ candidateNames e.node suffix, r.toldNamed name = .ok none) →
      y.1 = .ok .created ∧
        ∃ k, ∃ name ∈ candidateNames e.node suffix, ∃ id, r.toldNamed name = .ok none ∧
          r.told id = .ok none ∧ Repository.Turns m (registered (c k).1 id e.node name) r y.2) ∧
    (Seen e → r.toldAt e.node.address = .ok none →
      (∀ name ∈ candidateNames e.node suffix, r.toldNamed name ≠ .ok none) →
      y = (.error (.nameExhausted e.node.address), r)) ∧
    (e.kind = .lost → ∀ x, r.toldAt e.node.address = .ok (some x) → x.status ≠ .unknown →
      x.version < maxVersion →
      y.1 = .ok .markedUnknown ∧ ∃ k, Repository.Turns m (givenUp (c k).1 x) r y.2) ∧
    (e.kind = .lost → (r.toldAt e.node.address = .ok none ∨
        ∃ x, r.toldAt e.node.address = .ok (some x) ∧ x.status = .unknown) →
      y = (.ok .ignored, r)) := by
  obtain ⟨s, rfl, rfl, hs, -⟩ := hr.exists_stock
  obtain ⟨k, hy, hs'⟩ := run_store hc hs e suffix
  simp only [hy]
  refine ⟨fun he x hx hroom => ?_, fun he hnobody hfree => ?_, fun he hnobody htaken => ?_,
    fun he x hx hstatus hroom => ?_, fun he h => ?_⟩
  · obtain ⟨r, hfound, hreads⟩ := exists_of_toldAt hs hx
    by_cases h : IsNews e.node x
    · rw [settle_news hfound hreads he h (hroom h)] at hs' ⊢
      exact ⟨rfl, k, turns_rewrite hfound hreads hs rfl hs'⟩
    · rw [settle_sign hfound hreads he h] at hs' ⊢
      have hturns := turns_touch hfound hreads hs _ hs'
      rw [renewed_of_not_news (c k).1 h] at hturns
      exact ⟨rfl, k, hturns⟩
  · have hnone := liveAt_of_toldAt hs hnobody
    obtain ⟨name, hname, hn, hsettle⟩ := settle_new hnone (c k).1 he
      (hfree.imp fun _ h => h.imp_right (toldNamed_eq_none hs).mp)
    rw [hsettle] at hs' ⊢
    have hfresh : withId s.records (s.stamp (c k).1).id = none :=
      List.find?_eq_none.mpr fun x hx hid =>
        hs.fresh _ (Nat.lt_succ_self _) x hx (of_decide_eq_true hid)
    refine ⟨rfl, k, name, hname, (s.stamp (c k).1).id, (toldNamed_eq_none hs).mpr hn, ?_,
      hs.turns_add hs' rfl hfresh hnone⟩
    rw [hs.told, hfresh]
    rfl
  · have hnone := liveAt_of_toldAt hs hnobody
    rw [settle_unnamed hnone he fun name hname => Bool.not_eq_false _ ▸
      mt (toldNamed_eq_none hs).mpr (htaken name hname)]
  · obtain ⟨r, hfound, hreads⟩ := exists_of_toldAt hs hx
    rw [settle_loss hfound hreads he hstatus hroom] at hs' ⊢
    exact ⟨rfl, k, turns_rewrite hfound hreads hs rfl hs'⟩
  · rcases h with hnobody | ⟨x, hx, hstatus⟩
    · rw [settle_nobody (liveAt_of_toldAt hs hnobody) he]
    · obtain ⟨r, hfound, hreads⟩ := exists_of_toldAt hs hx
      rw [settle_lost hfound hreads he hstatus]

/-- The record that is known before the node arrives. -/
def knownRecord : Record :=
  NewRecord.toRecord { name := "n1", address := .v4 10 0 0 1, lastSeen := default } ⟨"#1", default⟩

def newcomer : Event := ⟨.discovered, .bare "b" "n2" (.v4 10 0 0 2) 9091 default⟩

def departure : Event := ⟨.lost, arrival.node⟩

theorem reconcile_transitions_for_known :
    let r := (Repository.inTable true).after known
    let y (e : Event) := alwaysNow.run Repository.step (reconcile e []) r
    r.Reached .table known ∧ alwaysNow.Calm ∧
      r.toldAt (.v4 10 0 0 1) = .ok (some knownRecord) ∧ (y arrival).1 = .ok .updated ∧
      (y arrival).2.told "#1" =
        .ok (some { knownRecord with architecture := "arm64", version := 2 }) ∧
      (y newcomer).1 = .ok .created ∧ (y newcomer).2.told "#1" = .ok (some knownRecord) ∧
      (y departure).1 = .ok .markedUnknown := by
  intro r y
  have hr : r.Reached .table known := ⟨_, .table true, fun _ => by decide, rfl⟩
  have hc : alwaysNow.Calm := fun _ => rfl
  have hplain : (default : Time.Instant).HasPlainYear := by decide
  have hmemory : (0 : UInt64).toNat < 2 ^ 63 := by simp
  have htell : ∀ a, ∀ v < 2 ^ 63,
      Medium.table.tell { knownRecord with architecture := a, version := v } =
        .ok { knownRecord with architecture := a, version := v } := fun a v hv =>
    Medium.tell_eq_self (fun _ => ⟨hplain, hplain, hplain, nofun⟩) (fun _ => hmemory) fun _ => hv
  have hknown : r.toldAt (.v4 10 0 0 1) = .ok (some knownRecord) := by
    change Medium.table.tell? (some knownRecord) = _
    exact Medium.tell?_ok (htell _ _ (by decide))
  have hstored : r.told "#1" = .ok (some knownRecord) := by
    change Medium.table.tell? (some knownRecord) = _
    exact Medium.tell?_ok (htell _ _ (by decide))
  obtain ⟨hupdated, k, hrenewed⟩ := (reconcile_transitions hr hc arrival []).1 nofun knownRecord
    hknown fun _ => by decide
  obtain ⟨hcreated, k', name, -, id, -, hnew, hadded⟩ :=
    (reconcile_transitions hr hc newcomer []).2.1 nofun rfl ⟨"n2".toList, by decide, rfl⟩
  have hmarked := ((reconcile_transitions hr hc departure []).2.2.2.1 rfl knownRecord hknown
    (by decide) (by decide)).1
  have hrecord : renewed (alwaysNow k).1 arrival.node knownRecord =
      { knownRecord with architecture := "arm64", version := 2 } := by
    change renewed default _ _ = _
    decide
  have hhere := hrenewed.here
  rw [hrecord, Medium.tell?_ok (htell _ _ (by decide))] at hhere
  have hother : "#1" ≠ id := by
    rintro rfl
    rw [hstored] at hnew
    cases hnew
  exact ⟨hr, hc, hknown, hupdated.trans rfl, hhere, hcreated,
    (hadded.elsewhere "#1" hother).trans hstored, hmarked⟩

end NodeWatch.Reconcile
