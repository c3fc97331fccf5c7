import NodeWatch.Proofs.Reconcile.Session

/-!
A reconciliation that nobody disturbs, case by case.
-/

namespace NodeWatch.Reconcile

open Store

variable {e : Event} {l : Ledger} {now : Time.Instant} {r : Record} {suffix : List Char}

/-- A whole reconciliation at one time. -/
def alone (now : Time.Instant) (e : Event) (suffix : List Char) (l : Ledger) :
    Except Error Outcome × Ledger :=
  (reconcile e suffix).run (Ledger.step now) l

/-! ### A node is lost -/

lemma alone_lost_none (hk : e.kind = .lost) (h : liveAt l.records e.node.address = none) :
    alone now e suffix l = (.ok .ignored, l) := by
  rw [alone, reconcile_lost hk, attempts, markUnknown_succ, closing_ask, Program.run_ask]
  simp only [Ledger.step, h]
  rfl

lemma alone_lost_unknown (hk : e.kind = .lost) (h : liveAt l.records e.node.address = some r)
    (hr : r.status = .unknown) : alone now e suffix l = (.ok .ignored, l) := by
  rw [alone, reconcile_lost hk, attempts, markUnknown_succ, closing_ask, Program.run_ask]
  simp only [Ledger.step, h, hr, if_true]
  rfl

lemma alone_lost_marks (hs : l.Sound) (hk : e.kind = .lost)
    (h : liveAt l.records e.node.address = some r) (hr : r.status ≠ .unknown)
    (hmax : ¬ maxVersion ≤ r.version) :
    alone now e suffix l =
      (.ok .markedUnknown, l.amend r.id (l.medium.revise now { status := some .unknown })) := by
  obtain ⟨hm, hl, -⟩ := liveAt_eq_some h
  have hup := hs.step_update now (p := { status := some .unknown }) rfl hm hl hmax
  rw [alone, reconcile_lost hk, attempts, markUnknown_succ, closing_ask, Program.run_ask]
  have hfind : l.step now (.findByAddress e.node.address) = (.ok (some r), l) := by
    simp only [Ledger.step, h]
  rw [hfind]
  simp only [hr, if_false]
  rw [mark, closing_ask, Program.run_ask, hup]
  rfl

/-! ### A node is seen -/

lemma find_eq (h : liveAt l.records e.node.address = some r) :
    l.step now (.findByAddress e.node.address) = (.ok (some r), l) := by
  simp only [Ledger.step, h]

lemma alone_seen_touches (hs : l.Sound) (hk : Seen e)
    (h : liveAt l.records e.node.address = some r)
    (hp : (refreshPatch r e.node).isEmpty = true) :
    alone now e suffix l =
      (.ok .refreshed, l.amend r.id (Record.touched e.node.lastSeen)) := by
  obtain ⟨hm, -, -⟩ := liveAt_eq_some h
  rw [alone, reconcile_seen hk, Program.run_ask, find_eq h]
  simp only
  rw [attempts, refresh_of_isEmpty hp, closing_ask, Program.run_ask,
    Ledger.step_touch (hs.orderly.withId_of_mem hm)]
  rfl

lemma alone_seen_changes (hs : l.Sound) (hk : Seen e)
    (h : liveAt l.records e.node.address = some r)
    (hp : (refreshPatch r e.node).isEmpty = false) (hmax : ¬ maxVersion ≤ r.version) :
    alone now e suffix l =
      (.ok (if (refreshPatch r e.node).status = some .discovered then .recovered else .updated),
        l.amend r.id (l.medium.revise now (refreshPatch r e.node))) := by
  obtain ⟨hm, hl, -⟩ := liveAt_eq_some h
  have hup := hs.step_update now (p := refreshPatch r e.node) refreshPatch_name hm hl hmax
  rw [alone, reconcile_seen hk, Program.run_ask, find_eq h]
  simp only
  rw [attempts, refresh_of_changes hp, closing_ask, Program.run_ask, hup]
  rfl

/-- The new record comes under the first name that is free. -/
lemma run_create (hs : l.Sound) (h : liveAt l.records e.node.address = none)
    (front : List (List Char)) (name : List Char) (back : List (List Char))
    (hfront : ∀ x ∈ front, ∃ s ∈ l.records, s.isLive = true ∧ s.name = String.ofList x)
    (hfree : l.medium.clash? l.records (l.next now (newRecord e.node name)) = none) :
    (create e (front ++ name :: back)).run (Ledger.step now) l =
      (.ok .created, l.add (l.next now (newRecord e.node name))) := by
  induction front with
  | nil =>
    rw [List.nil_append, create_cons, Program.run_ask, Ledger.step_create_free hfree]
    rfl
  | cons x front ih =>
    have hx : ∃ u, l.medium.clash? l.records (l.next now (newRecord e.node x)) = some u := by
      rw [← Option.isSome_iff_exists, Option.isSome_iff_ne_none]
      intro hnone
      obtain ⟨s, hsm, hsl, hsn⟩ := hfront x (by simp)
      exact Medium.not_taken_of_clash?_eq_none (l.next_isLive now _) (hs.next_id now _) hnone
        ⟨s, hsm, hsl, .inr hsn⟩
    obtain ⟨u, hu⟩ := hx
    -- nobody has the address, so that it is the name that is taken
    obtain rfl : u = .name := by
      obtain ⟨s, hsm, hsl, -, ⟨-, ha⟩ | ⟨rfl, -⟩⟩ := Medium.clash?_eq_some hu
      · exact absurd ha (liveAt_eq_none h s hsm hsl)
      · rfl
    rw [List.cons_append, create_cons, Program.run_ask, Ledger.step_create_clash hu]
    exact ih fun y hy => hfront y (by simp [hy])

lemma alone_seen_creates (hs : l.Sound) (hk : Seen e)
    (h : liveAt l.records e.node.address = none) {front back : List (List Char)}
    {name : List Char} (hnames : candidateNames e.node suffix = front ++ name :: back)
    (hfront : ∀ x ∈ front, ∃ s ∈ l.records, s.isLive = true ∧ s.name = String.ofList x)
    (hfree : l.medium.clash? l.records (l.next now (newRecord e.node name)) = none) :
    alone now e suffix l = (.ok .created, l.add (l.next now (newRecord e.node name))) := by
  have hfind : l.step now (.findByAddress e.node.address) = (.ok none, l) := by
    simp only [Ledger.step, h]
  rw [alone, reconcile_seen hk, Program.run_ask, hfind]
  simp only
  rw [hnames]
  exact run_create hs h front name back hfront hfree

end NodeWatch.Reconcile
