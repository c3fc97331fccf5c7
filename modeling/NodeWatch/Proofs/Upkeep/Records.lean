import NodeWatch.Proofs.Reconcile.Settled
import NodeWatch.Proofs.Store.Course
import NodeWatch.Proofs.Store.Refinement
import NodeWatch.Proofs.Upkeep.Run

/-!
What the records tell of the events.

An address has a record if a node has been seen there, and the record is marked if the last event at
that address tells of a loss. Events whose reconciliation fails count for nothing.
-/

namespace NodeWatch.Upkeep

open Store Reconcile

/-- The last of the events at an address. -/
def lastAt (es : List Event) (a : Net.Address) : Option Event :=
  es.reverse.find? (·.node.address = a)

/-- The records are what the events make of an empty ledger. -/
structure Reflects (es : List Event) (l : Ledger) : Prop where
  told : ∀ a r, liveAt l.records a = some r →
    ∃ e, lastAt es a = some e ∧ (r.status = .unknown ↔ e.kind = .lost)
  recorded : ∀ e ∈ es, Seen e → ∃ r, liveAt l.records e.node.address = some r

/-- The store can keep the times of a run: those of its clock, and those of what it is told. -/
def Timely (m : Medium) (past : List Moment) : Prop :=
  ∀ k ∈ past, (∀ c suffix, k.action = .reconcile c suffix → ∀ n, m.Keeps (c n).1) ∧
    ∀ e ∈ k.tried, m.Keeps e.node.lastSeen

variable {es fs : List Event} {e : Event} {l l' : Ledger} {a : Net.Address} {m : Medium}
  {r : Repository} {c : Course} {suffix : List Char} {u₀ u u' : Upkeep} {past : List Moment}

/-! ### Last events -/

lemma lastAt_concat (es : List Event) (e : Event) (a : Net.Address) :
    lastAt (es ++ [e]) a = if e.node.address = a then some e else lastAt es a := by
  rw [lastAt, List.reverse_append, List.reverse_singleton, List.singleton_append, List.find?_cons]
  by_cases h : e.node.address = a <;> simp [h, lastAt]

lemma lastAt_eq_some (h : lastAt es a = some e) : e ∈ es ∧ e.node.address = a :=
  ⟨List.mem_reverse.mp (List.mem_of_find?_eq_some h), by simpa using List.find?_some h⟩

/-- If there is an event at the address among the later ones, the last one is among them. -/
lemma lastAt_append (es : List Event) (h : ∃ e ∈ fs, e.node.address = a) :
    ∃ e ∈ fs, lastAt (es ++ fs) a = some e := by
  obtain ⟨e, he, ha⟩ := h
  cases hf : lastAt fs a with
  | none => exact absurd ha (by simpa using List.find?_eq_none.mp hf e (List.mem_reverse.mpr he))
  | some x =>
    refine ⟨x, (lastAt_eq_some hf).1, ?_⟩
    rw [lastAt, List.reverse_append, List.find?_append]
    rw [lastAt] at hf
    rw [hf]
    rfl

/-! ### One event -/

lemma reflects_nil (m : Medium) : Reflects [] ⟨m, 0, []⟩ :=
  ⟨fun a r h => by simp [liveAt] at h, by simp⟩

/-- Each live record is marked if and only if the last event at its address tells of a loss. -/
def Marks (es : List Event) (l : Ledger) : Prop :=
  ∀ a r, liveAt l.records a = some r →
    ∃ e, lastAt es a = some e ∧ (r.status = .unknown ↔ e.kind = .lost)

lemma Marks.settles (h : Marks es l) (hl : Settles e l l') : Marks (es ++ [e]) l' := by
  intro a r hr
  rw [lastAt_concat]
  by_cases ha : e.node.address = a
  · subst ha
    refine ⟨e, if_pos rfl, ?_⟩
    by_cases hk : e.kind = .lost
    · obtain ⟨s, -, hmarked⟩ := hl.exists_marked hk hr
      exact iff_of_true hmarked.status hk
    · obtain ⟨s, hs, hshows, -⟩ := hl.exists_shows hk
      obtain rfl := Option.some.inj (hr.symm.trans hs)
      exact iff_of_false hshows.present hk
  · rw [if_neg ha]
    rw [hl.elsewhere a (Ne.symm ha)] at hr
    exact h a r hr

/-- An event counts for nothing where no record is. -/
lemma Marks.vacant (h : Marks es l) (hl : liveAt l.records e.node.address = none) :
    Marks (es ++ [e]) l := by
  intro a r hr
  rw [lastAt_concat, if_neg]
  · exact h a r hr
  · rintro rfl
    simp [hl] at hr

lemma Reflects.settles (h : Reflects es l) (hl : Settles e l l') : Reflects (es ++ [e]) l' where
  told := Marks.settles h.told hl
  recorded := by
    intro d hd hseen
    by_cases hk : Seen e ∧ d.node.address = e.node.address
    · obtain ⟨s, hs, -⟩ := hl.exists_shows hk.1
      exact ⟨s, hk.2 ▸ hs⟩
    · -- somebody has been seen there before
      have hbefore : d ∈ es := by
        rcases List.mem_append.mp hd with hd | hd
        · exact hd
        · obtain rfl := List.mem_singleton.mp hd
          exact absurd ⟨hseen, rfl⟩ hk
      obtain ⟨r, hr⟩ := h.recorded d hbefore hseen
      by_cases ha : d.node.address = e.node.address
      · have hlost : e.kind = .lost := not_not.mp fun hs => hk ⟨hs, ha⟩
        rw [ha] at hr ⊢
        obtain ⟨s, hs, -⟩ := hl.marks hlost hr
        exact ⟨s, hs⟩
      · rw [hl.elsewhere _ ha]
        exact ⟨r, hr⟩

/-- A record that is not marked, and the last event at its address. -/
lemma Reflects.present_iff (h : Reflects es l) (a : Net.Address) :
    (∃ r, liveAt l.records a = some r ∧ r.status ≠ .unknown) ↔
      ∃ e, lastAt es a = some e ∧ Seen e := by
  constructor
  · rintro ⟨r, hr, hstatus⟩
    obtain ⟨e, he, hiff⟩ := h.told a r hr
    exact ⟨e, he, fun hk => hstatus (hiff.mpr hk)⟩
  · rintro ⟨e, he, hseen⟩
    obtain ⟨hmem, rfl⟩ := lastAt_eq_some he
    obtain ⟨r, hr⟩ := h.recorded e hmem hseen
    obtain ⟨d, hd, hiff⟩ := h.told _ r hr
    obtain rfl := Option.some.inj (he.symm.trans hd)
    exact ⟨r, hr, fun hs => hseen (hiff.mp hs)⟩

/-! ### A store that is out of order now and then -/

lemma handle_alike (suffix : List Char) (hc : ∀ n, m.Keeps (c n).1) (he : m.Keeps e.node.lastSeen)
    (h : Repository.Tracks m r l) :
    (handle c suffix e r).1 = (c.run Ledger.step (reconcile e suffix) l).1 ∧
      Repository.Tracks m (handle c suffix e r).2 (c.run Ledger.step (reconcile e suffix) l).2 :=
  Course.run_alike (fun n => Repository.alike (hc n)) (reconcile_asks he suffix) h

/-! ### A whole run -/

/-- What a step makes of the ledger. Only what the reconciler does makes a difference. -/
lemma step_ledger {a : Action} (made : u.step? a = some u') (htime : Timely m [⟨u, a⟩])
    (h : Repository.Tracks m u.store l) : ∃ l', Repository.Tracks m u'.store l' ∧
      ((⟨u, a⟩ : Moment).handled? = none ∧ l' = l ∨
        ∃ e x, (⟨u, a⟩ : Moment).handled? = some (e, x) ∧ Fine e l (x, l') ∧
          ∀ b, x = .error (.nameExhausted b) → liveAt l.records e.node.address = none) := by
  obtain ⟨hclock, htold⟩ := htime ⟨u, a⟩ (by simp)
  cases a with
  | serve a =>
    obtain ⟨-, es, s', -, rfl⟩ := step?_serve made
    exact ⟨l, h, .inl ⟨rfl, rfl⟩⟩
  | reconcile c suffix =>
    obtain ⟨e, he, hstore, -, -⟩ := step?_reconcile made
    have hhandled : (⟨u, .reconcile c suffix⟩ : Moment).handled? =
        some (e, (handle c suffix e u.store).1) := by
      simp [Moment.handled?, he]
    have hkeeps : m.Keeps e.node.lastSeen := htold e (by simp [Moment.tried, hhandled])
    obtain ⟨hsame, htracks⟩ := handle_alike suffix (hclock c suffix rfl) hkeeps h
    rw [← hstore] at htracks
    rw [hsame] at hhandled
    exact ⟨_, htracks, .inr ⟨e, _, hhandled, fine_reconcile h.2.1 c e suffix,
      fun _ => vacant_of_exhausted c e suffix⟩⟩

/-- **The records reflect the events that are reconciled without error.** -/
theorem Run.reflects (h : Run u₀ past u) (htime : Timely m past)
    (h₀ : Repository.Tracks m u₀.store ⟨m, 0, []⟩) :
    ∃ l, Repository.Tracks m u.store l ∧
      Reflects (Service.history Moment.settled past) l := by
  induction h with
  | start => exact ⟨_, h₀, reflects_nil m⟩
  | @step past u u' a run made ih =>
    obtain ⟨l, htracks, hreflects⟩ := ih fun k hk => htime k (by simp [hk])
    obtain ⟨l', htracks', hledger⟩ := step_ledger made (fun k hk => htime k (by simp_all)) htracks
    refine ⟨l', htracks', ?_⟩
    rw [Service.history_cons]
    rcases hledger with ⟨hhandled, rfl⟩ | ⟨e, x | o, hhandled, hfine, -⟩
    · have hsettled : (⟨u, a⟩ : Moment).settled = [] := by simp [Moment.settled, hhandled]
      rwa [hsettled, List.append_nil]
    · have hsettled : (⟨u, a⟩ : Moment).settled = [] := by simp [Moment.settled, hhandled]
      obtain rfl : l' = l := hfine
      rwa [hsettled, List.append_nil]
    · have hsettled : (⟨u, a⟩ : Moment).settled = [e] := by simp [Moment.settled, hhandled]
      rw [hsettled]
      exact hreflects.settles hfine

end NodeWatch.Upkeep
