import NodeWatch.Proofs.Reconcile.Settled
import NodeWatch.Proofs.Reconcile.Undisturbed
import NodeWatch.Proofs.Store.Sql.Session

/-!
An event that is reconciled twice.

Once it has been reconciled without error the store says what the event says, and the same event
changes nothing more. If it has failed it fails again, unless it draws another name.
-/

namespace NodeWatch.Store

namespace Medium

variable {m : Medium} {r told : Record}

/-- What was told can be written again and read. -/
lemma readable_revised (h : m.tell r = .ok told) {now : Time.Instant} (hnow : m.Keeps now)
    {p : Patch} (hp : ∀ t, p.lastSeen = some t → m.Keeps t) :
    m = .table → (told.revised now p).Readable := by
  rintro rfl
  obtain ⟨hread, rfl⟩ := Sql.Row.record_eq_ok h
  exact Sql.Table.readable_apply (Sql.Table.readable_asRead hread) hnow hp

end Medium

end NodeWatch.Store

namespace NodeWatch.Reconcile

open Store

/-- What comes of an event that tells nothing new. -/
def repeated (e : Event) : Outcome := if e.kind = .lost then .ignored else .refreshed

/-- A record says what an event says. -/
def Tells (e : Event) (r : Record) : Prop :=
  if e.kind = .lost then r.status = .unknown else Shows e.node r

/-- So does a store. -/
inductive Heeds (e : Event) (s : Stock) : Prop where
  | gone (lost : e.kind = .lost) (nobody : liveAt s.records e.node.address = none)
  | told {r told : Record} (found : liveAt s.records e.node.address = some r)
    (reads : s.medium.tell r = .ok told) (tells : Tells e told)

variable {e : Event} {suffix : List Char} {s : Stock} {now : Time.Instant} {r told : Record}
  {o : Outcome} {x : Error}

/-- Nothing more is done. -/
lemma Heeds.settle (h : Heeds e s) (hs : s.Sound) (now : Time.Instant) (suffix : List Char) :
    Reconcile.settle now e suffix s = (.ok (repeated e), s) := by
  unfold Reconcile.settle repeated
  cases h with
  | gone lost nobody => simp only [nobody, Medium.tell?_none, if_pos lost]
  | @told r told found reads tells =>
    obtain ⟨hr, -, -⟩ := liveAt_eq_some found
    have hid := Medium.tell_id reads
    have hseen : told.lastSeen = r.lastSeen := by rw [Medium.tell_eq_ok reads, Medium.read_lastSeen]
    simp only [found, Medium.tell?_ok reads]
    unfold Tells at tells
    by_cases hk : e.kind = .lost
    · simp only [if_pos hk] at tells ⊢
      simp only [if_pos tells]
    · simp only [if_neg hk] at tells ⊢
      rw [if_pos tells.isEmpty, hid, hs.touch_eq_self hr (hseen ▸ tells.lastSeen)]

/-! ### Once -/

lemma heeds_add (hk : Seen e) (h : liveAt s.records e.node.address = none) (name : List Char)
    {st : Stamp} (hst : s.medium.Keeps st.now) (he : s.medium.Keeps e.node.lastSeen) :
    Heeds e (s.add ((newRecord e.node name).toRecord st)) := by
  have hread : s.medium = .table → ((newRecord e.node name).toRecord st).Readable := by
    intro hm
    rw [hm] at hst he
    exact Sql.Table.readable_new he hst
  refine .told ?_ (Medium.tell_of_readable hread) ?_
  · simp only [Stock.add]
    rw [liveAt_append, h, if_pos ⟨rfl, rfl⟩]
    rfl
  · rw [Tells, if_neg hk]
    exact shows_new s.medium name st

section

variable (hs : s.Sound)
include hs

section

variable (hr : liveAt s.records e.node.address = some r) (ht : s.medium.tell r = .ok told)
include hr ht

/-- A record that is written under its key is what will be found. -/
lemma heeds_amend {f : Record → Record} (hkey : (f r).key = r.key)
    (hread : s.medium = .table → (f r).Readable) (htells : Tells e (s.medium.read (f r)))
    {s' : Stock} (hmedium : s'.medium = s.medium) (hs' : s'.records = amend told.id f s.records) :
    Heeds e s' := by
  have hid := Medium.tell_id ht
  refine .told ?_ (Medium.tell_of_readable (hmedium ▸ hread)) (hmedium ▸ htells)
  rw [hs', hid]
  exact (hs.orderly.liveAt_amend hr hkey).1

lemma heeds_touch (hk : Seen e) (he : s.medium.Keeps e.node.lastSeen)
    (hsame : (refreshPatch told e.node).isEmpty = true) :
    Heeds e (s.touch told.id e.node.lastSeen) := by
  have htouched : s.medium.read (r.touched e.node.lastSeen) = told.touched e.node.lastSeen := by
    rw [Medium.tell_eq_ok ht, Medium.read_touched]
  refine heeds_amend hs hr ht (keepsKey_touched _ r) (fun hm => ?_) ?_ rfl rfl
  · rw [hm] at ht he
    obtain ⟨hread, -⟩ := Sql.Row.record_eq_ok ht
    exact ⟨Sql.Table.readable_latest hread.lastSeen he, hread.createdAt, hread.updatedAt,
      hread.deletedAt⟩
  · rw [htouched, Tells, if_neg hk]
    exact (shows_touched hsame).1

lemma heeds_rewrite (hnow : s.medium.Keeps now) {p : Patch} (hname : p.name = none)
    (hp : ∀ t, p.lastSeen = some t → s.medium.Keeps t)
    (htells : Tells e (s.medium.read (told.revised now p))) :
    Heeds e (s.rewrite (told.revised now p)) :=
  heeds_amend (f := fun _ => told.revised now p) hs hr ht (Medium.key_revised ht now hname)
    (Medium.readable_revised ht hnow hp) htells rfl rfl

end

/-- **What is reconciled without error is heeded.** -/
theorem Settling.heeds (hnow : s.medium.Keeps now) (he : s.medium.Keeps e.node.lastSeen)
    {y : Except Error Outcome × Stock} (h : Settling now e suffix s y) (hok : y.1 = .ok o) :
    Heeds e y.2 := by
  cases h with
  | unreadable fails => cases hok
  | unnamed seen nobody taken => cases hok
  | full found reads revises last => cases hok
  | absent lost nobody => exact .gone lost nobody
  | creates seen nobody free => exact heeds_add seen nobody _ hnow he
  | marked lost found reads unknown => exact .told found reads (by rwa [Tells, if_pos lost])
  | touches seen found reads same => exact heeds_touch hs found reads seen he same
  | writes found reads revises =>
    cases revises with
    | marks lost unmarked =>
      refine heeds_rewrite hs found reads hnow rfl nofun ?_
      rw [Tells, if_pos lost, Medium.read_status]
      rfl
    | brings seen changes =>
      refine heeds_rewrite hs found reads hnow refreshPatch_name (fun t hp => ?_) ?_
      · rw [eq_of_refreshPatch_lastSeen hp]
        exact he
      · rw [Tells, if_neg seen]
        exact (shows_revise s.medium now changes).1

end

/-- What fails leaves everything as it was, and fails again with the same name. -/
lemma Settling.fails {y : Except Error Outcome × Stock} (h : Settling now e suffix s y)
    (herror : y.1 = .error x) (now' : Time.Instant) {suffix' : List Char}
    (hsuffix : (∀ a, x ≠ .nameExhausted a) ∨ suffix' = suffix) :
    y.2 = s ∧ settle now' e suffix' s = (.error x, s) := by
  cases h with
  | unreadable fails =>
    obtain rfl := Except.error.inj herror
    simp only [settle, fails]
    exact ⟨trivial, rfl⟩
  | unnamed seen nobody taken =>
    obtain rfl := Except.error.inj herror
    obtain rfl : suffix' = suffix := hsuffix.resolve_left fun h => h _ rfl
    simp only [settle, nobody, Medium.tell?_none, if_neg seen, taken]
    exact ⟨trivial, trivial⟩
  | full found reads revises last =>
    obtain rfl := Except.error.inj herror
    rw [settle_of_revises found reads revises, revise, if_pos last]
    exact ⟨rfl, rfl⟩
  | absent lost nobody => cases herror
  | creates seen nobody free => cases herror
  | marked lost found reads unknown => cases herror
  | touches seen found reads same => cases herror
  | writes found reads revises => cases herror

/-! ### Twice -/

section

variable (hs : s.Sound) (hs' : (settle now e suffix s).2.Sound) (hnow : s.medium.Keeps now)
  (he : s.medium.Keeps e.node.lastSeen) (now' : Time.Instant) {suffix' : List Char}
include hs hs' hnow he

lemma settle_after_success (h : (settle now e suffix s).1 = .ok o) :
    settle now' e suffix' (settle now e suffix s).2 =
      (.ok (repeated e), (settle now e suffix s).2) :=
  ((settling_settle now e suffix s).heeds hs hnow he h).settle hs' now' suffix'

lemma settle_twice
    (hsuffix : (∀ a, (settle now e suffix s).1 ≠ .error (.nameExhausted a)) ∨ suffix' = suffix) :
    (settle now' e suffix' (settle now e suffix s).2).2 = (settle now e suffix s).2 := by
  cases hfirst : (settle now e suffix s).1 with
  | ok o => rw [settle_after_success hs hs' hnow he now' hfirst]
  | error x =>
    obtain ⟨hstays, hfails⟩ := (settling_settle now e suffix s).fails hfirst now'
      (hsuffix.imp_left fun h a hx => h a (hx ▸ hfirst))
    rw [hstays, hfails]

end

/-- **An event that is reconciled twice** makes of a store what it makes of it once, and after a
success nothing is left to do. Where all names are taken, this is so if no other name is drawn. -/
theorem reconcile_twice {m : Medium} {r : Repository} {calls : List (Time.Instant × Operation)}
    (hr : r.Reached m calls) {c c' : Course} (hc : c.Calm) (hc' : c'.Calm)
    (htimes : ∀ n, m.Keeps (c n).1) {e : Event} (he : m.Keeps e.node.lastSeen)
    (suffix suffix' : List Char) :
    let once := c.run Repository.step (reconcile e suffix) r
    let twice := c'.run Repository.step (reconcile e suffix') once.2
    ((∀ a, once.1 ≠ .error (.nameExhausted a)) ∨ suffix' = suffix → twice.2 = once.2) ∧
      ∀ o, once.1 = .ok o → twice.1 = .ok (repeated e) := by
  obtain ⟨s, rfl, rfl, hs, -⟩ := hr.exists_stock
  obtain ⟨k, honce, hs'⟩ := run_store hc hs e suffix
  obtain ⟨k', htwice, -⟩ := run_store hc' hs' e suffix'
  simp only [honce, htwice]
  refine ⟨fun h => congrArg Stock.store (settle_twice hs hs' (htimes k) he (c' k').1 h),
    fun o ho => ?_⟩
  rw [settle_after_success hs hs' (htimes k) he (c' k').1 ho]

/-- A node tells its architecture. -/
def arrival : Event :=
  ⟨.updated, (Observation.bare "a" "n1" (.v4 10 0 0 1) 9091 default).withAttribute "arch" "arm64"⟩

def alwaysNow : Course := fun _ => (default, none)

def known : List (Time.Instant × Operation) :=
  [(default, .create { name := "n1", address := .v4 10 0 0 1, lastSeen := default })]

theorem reconcile_twice_for_arrival :
    let r := (Repository.inTable true).after known
    let once := alwaysNow.run Repository.step (reconcile arrival []) r
    let twice := alwaysNow.run Repository.step (reconcile arrival []) once.2
    r.Reached .table known ∧ alwaysNow.Calm ∧ (∀ n, Medium.table.Keeps (alwaysNow n).1) ∧
      Medium.table.Keeps arrival.node.lastSeen ∧ once.1 = .ok .updated ∧
      twice = (.ok .refreshed, once.2) := by
  intro r once twice
  have hr : r.Reached .table known := ⟨_, .table true, fun _ => by decide, rfl⟩
  have hc : alwaysNow.Calm := fun _ => rfl
  have hplain : (default : Time.Instant).HasPlainYear := by decide
  have h := reconcile_twice hr hc hc (fun _ => hplain) (e := arrival) hplain [] []
  have honce : once.1 = .ok .updated := rfl
  exact ⟨hr, hc, fun _ => hplain, hplain, honce, Prod.ext (h.2 _ honce) (h.1 (.inr rfl))⟩

/-- Others have all the names that are tried first. -/
def crowded : List (Time.Instant × Operation) :=
  [(default, .create { name := "n1", address := .v4 10 0 0 2, lastSeen := default }),
    (default, .create { name := "n1-10-0-0-1", address := .v4 10 0 0 3, lastSeen := default }),
    (default, .create { name := "n1-aaaa", address := .v4 10 0 0 4, lastSeen := default })]

def turnedAway : Except Error Outcome × Repository :=
  alwaysNow.run Repository.step (reconcile arrival ['a', 'a', 'a', 'a'])
    (Repository.inMemory.after crowded)

/-- The same event again, with another name at the end. -/
def letIn : Except Error Outcome × Repository :=
  alwaysNow.run Repository.step (reconcile arrival ['b', 'b', 'b', 'b']) turnedAway.2

/-- **An event that is repeated can do more than once**, if another name is drawn. -/
theorem created_when_repeated :
    (Repository.inMemory.after crowded).Reached (.memory .same) crowded ∧ alwaysNow.Calm ∧
      turnedAway.1 = .error (.nameExhausted arrival.node.address) ∧ letIn.1 = .ok .created ∧
      letIn.2 ≠ turnedAway.2 := by
  refine ⟨⟨_, .memory _, nofun, rfl⟩, fun _ => rfl, rfl, rfl, fun h => ?_⟩
  have hmade : letIn.2.made = turnedAway.2.made := congrArg Repository.made h
  exact absurd hmade (by decide)

end NodeWatch.Reconcile
