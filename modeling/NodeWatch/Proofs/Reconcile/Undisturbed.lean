import NodeWatch.Proofs.Reconcile.Session
import NodeWatch.Proofs.Store.Course
import NodeWatch.Proofs.Store.Stock

/-!
A reconciliation that nobody disturbs, as one step.

What it comes to is told by the record at the address of the event as it is read, and if there is
none by the names that are taken.
-/

namespace NodeWatch.Reconcile

open Store

/-! ### What it comes to -/

/-- A live record has the name. -/
def isNamed (rs : List Record) (name : List Char) : Bool :=
  rs.any fun r => r.isLive && r.name = String.ofList name

/-- The first of the names that no live record has. -/
def firstFree? (rs : List Record) (names : List (List Char)) : Option (List Char) :=
  names.find? (!isNamed rs ·)

/-- A record is revised as it was told, if there is room for one more version. -/
def revise (now : Time.Instant) (e : Event) (told : Record) (p : Patch) (o : Outcome)
    (s : Stock) : Except Error Outcome × Stock :=
  if maxVersion ≤ told.version then (failed e (.error .versionOverflow), s)
  else (.ok o, s.rewrite (told.revised now p))

/-- A reconciliation at a time. -/
def settle (now : Time.Instant) (e : Event) (suffix : List Char) (s : Stock) :
    Except Error Outcome × Stock :=
  match s.medium.tell? (liveAt s.records e.node.address) with
  | .error x => (failed e (.error x), s)
  | .ok none =>
    if e.kind = .lost then (.ok .ignored, s)
    else
      match firstFree? s.records (candidateNames e.node suffix) with
      | none => (.error (.nameExhausted e.node.address), s)
      | some name => (.ok .created, s.add ((newRecord e.node name).toRecord (s.stamp now)))
  | .ok (some told) =>
    if e.kind = .lost then
      if told.status = .unknown then (.ok .ignored, s)
      else revise now e told { status := some .unknown } .markedUnknown s
    else if (refreshPatch told e.node).isEmpty then
      (.ok .refreshed, s.touch told.id e.node.lastSeen)
    else
      revise now e told (refreshPatch told e.node)
        (if (refreshPatch told e.node).status = some .discovered then .recovered else .updated) s

section

variable {e : Event} {suffix : List Char} {s : Stock} {c : Course} {n left : Nat}
  {told r : Record} {rs : List Record} {name : List Char}

lemma isNamed_iff : isNamed rs name = true ↔
    ∃ r ∈ rs, r.isLive = true ∧ r.name = String.ofList name := by
  simp [isNamed]

lemma step_find (now : Time.Instant) (a : Net.Address) :
    s.step now (.findByAddress a) = (s.medium.tell? (liveAt s.records a), s) := rfl

/-- Where nobody has the address, a name that nobody has is free. -/
lemma not_taken (ha : liveAt rs e.node.address = none) (hn : isNamed rs name = false) :
    ¬ Taken rs (String.ofList name) e.node.address := by
  rintro ⟨x, hx, hl, ha' | hname⟩
  · exact liveAt_eq_none ha x hx hl ha'
  · rw [isNamed_iff.mpr ⟨x, hx, hl, hname⟩] at hn
    cases hn

variable (hc : c.Calm) (hs : s.Sound)
include hc hs

/-! ### Call by call -/

lemma runFrom_create (h : liveAt s.records e.node.address = none) (names : List (List Char)) :
    ∃ k, c.runFrom Stock.step n (create e names) s =
      match firstFree? s.records names with
      | none => (.error (.nameExhausted e.node.address), s)
      | some name =>
        (.ok .created, s.add ((newRecord e.node name).toRecord (s.stamp (c k).1))) := by
  induction names generalizing n with
  | nil => exact ⟨0, rfl⟩
  | cons name names ih =>
    rw [create_cons, hc.runFrom_ask, firstFree?, List.find?_cons]
    cases hnamed : isNamed s.records name with
    | true =>
      rw [hs.step_create_named (c n).1 h (isNamed_iff.mp hnamed)]
      exact ih
    | false =>
      rw [Stock.step_create_free (c n).1 (not_taken h hnamed)]
      exact ⟨n, rfl⟩

section

variable (hr : r ∈ s.records) (hl : r.isLive = true) (ht : s.medium.tell r = .ok told)
include hr hl ht

/-- A write is made, or cannot be made. -/
lemma runFrom_update {p : Patch} (hp : p.name = none) {o : Outcome}
    {next : (Operation.update told.id told.version p).Answer → Session (Except Error Outcome)}
    (done : ∀ x, next (.ok x) = .done (.ok o))
    (fails : next (.error .versionOverflow) = .done (failed e (.error .versionOverflow))) :
    c.runFrom Stock.step n (.ask (.update told.id told.version p) next) s =
      revise (c n).1 e told p o s := by
  rw [hc.runFrom_ask, revise]
  split
  next hmax =>
    rw [hs.step_update_overflow hr ht (c n).1 p hmax]
    exact congrArg (c.runFrom Stock.step (n + 1) · s) fails
  next hmax =>
    rw [hs.step_update hr ht (c n).1 hl hp hmax]
    exact congrArg (c.runFrom Stock.step (n + 1) · _) (done _)

lemma runFrom_refresh : c.runFrom Stock.step n (closing e (refresh e.node (left + 1) told)) s =
    if (refreshPatch told e.node).isEmpty then
      (.ok .refreshed, s.touch told.id e.node.lastSeen)
    else
      revise (c n).1 e told (refreshPatch told e.node)
        (if (refreshPatch told e.node).status = some .discovered then .recovered else .updated)
        s := by
  cases hp : (refreshPatch told e.node).isEmpty with
  | true =>
    rw [refresh_of_isEmpty hp, closing_ask, hc.runFrom_ask, hs.step_touch hr ht]
    rfl
  | false =>
    rw [refresh_of_changes hp, closing_ask]
    exact runFrom_update hc hs hr hl ht refreshPatch_name (fun _ => rfl) rfl

end

/-- A loss is one step. -/
lemma run_lost (hk : e.kind = .lost) :
    ∃ k, c.run Stock.step (reconcile e suffix) s = settle (c k).1 e suffix s := by
  rw [Course.run_eq_runFrom, reconcile_lost hk, attempts, markUnknown_succ, closing_ask,
    hc.runFrom_ask, step_find]
  simp only [settle, if_pos hk]
  cases hfound : s.medium.tell? (liveAt s.records e.node.address) with
  | error x => exact ⟨0, rfl⟩
  | ok found =>
    cases found with
    | none => exact ⟨0, rfl⟩
    | some told =>
      obtain ⟨r, hr, ht⟩ := Medium.tell?_eq_ok_some hfound
      obtain ⟨hmem, hl, -⟩ := liveAt_eq_some hr
      by_cases hmarked : told.status = .unknown
      · simp only [if_pos hmarked]
        exact ⟨0, rfl⟩
      · simp only [if_neg hmarked]
        rw [mark, closing_ask]
        exact ⟨1, runFrom_update hc hs hmem hl ht rfl (fun _ => rfl) rfl⟩

/-- So is a sign of life. -/
lemma run_seen (hk : Seen e) :
    ∃ k, c.run Stock.step (reconcile e suffix) s = settle (c k).1 e suffix s := by
  rw [Course.run_eq_runFrom, reconcile_seen hk, hc.runFrom_ask, step_find]
  simp only [settle, if_neg hk]
  cases hfound : s.medium.tell? (liveAt s.records e.node.address) with
  | error x => exact ⟨0, rfl⟩
  | ok found =>
    cases found with
    | none => exact runFrom_create hc hs (Medium.tell?_eq_ok_none hfound) _
    | some told =>
      obtain ⟨r, hr, ht⟩ := Medium.tell?_eq_ok_some hfound
      obtain ⟨hmem, hl, -⟩ := liveAt_eq_some hr
      exact ⟨1, runFrom_refresh hc hs hmem hl ht⟩

/-- **A reconciliation that nobody disturbs** is one step. -/
theorem run_eq_settle (e : Event) (suffix : List Char) :
    ∃ k, c.run Stock.step (reconcile e suffix) s = settle (c k).1 e suffix s := by
  by_cases hk : e.kind = .lost
  · exact run_lost hc hs hk
  · exact run_seen hc hs hk

/-- So it is on the store itself, which stays in working order. -/
theorem run_store (e : Event) (suffix : List Char) :
    ∃ k, c.run Repository.step (reconcile e suffix) s.store =
        ((settle (c k).1 e suffix s).1, (settle (c k).1 e suffix s).2.store) ∧
      (settle (c k).1 e suffix s).2.Sound := by
  obtain ⟨k, hk⟩ := run_eq_settle hc hs e suffix
  obtain ⟨ha, hR, hsound⟩ := Course.run_alike (fun n => Stock.alike .same (c n).1)
    (reconcile_asks (m := .memory .same) trivial suffix) ⟨rfl, hs⟩
  rw [hk] at ha hR hsound
  exact ⟨k, Prod.ext ha hR, hsound⟩

end

/-! ### What it can be -/

/-- What is written to the record of an event, and what is said of it. -/
inductive Revises (e : Event) (told : Record) : Patch → Outcome → Prop where
  | marks (lost : e.kind = .lost) (unmarked : told.status ≠ .unknown) :
    Revises e told { status := some .unknown } .markedUnknown
  | brings (seen : Seen e) (changes : (refreshPatch told e.node).isEmpty = false) :
    Revises e told (refreshPatch told e.node)
      (if (refreshPatch told e.node).status = some .discovered then .recovered else .updated)

/-- Each thing that a reconciliation can come to. -/
inductive Settling (now : Time.Instant) (e : Event) (suffix : List Char) (s : Stock) :
    Except Error Outcome × Stock → Prop where
  | unreadable {x : Store.Error}
    (fails : s.medium.tell? (liveAt s.records e.node.address) = .error x) :
    Settling now e suffix s (failed e (.error x), s)
  | absent (lost : e.kind = .lost) (nobody : liveAt s.records e.node.address = none) :
    Settling now e suffix s (.ok .ignored, s)
  | unnamed (seen : Seen e) (nobody : liveAt s.records e.node.address = none)
    (taken : firstFree? s.records (candidateNames e.node suffix) = none) :
    Settling now e suffix s (.error (.nameExhausted e.node.address), s)
  | creates {name : List Char} (seen : Seen e) (nobody : liveAt s.records e.node.address = none)
    (free : firstFree? s.records (candidateNames e.node suffix) = some name) :
    Settling now e suffix s
      (.ok .created, s.add ((newRecord e.node name).toRecord (s.stamp now)))
  | marked {r told : Record} (lost : e.kind = .lost)
    (found : liveAt s.records e.node.address = some r) (reads : s.medium.tell r = .ok told)
    (unknown : told.status = .unknown) : Settling now e suffix s (.ok .ignored, s)
  | touches {r told : Record} (seen : Seen e) (found : liveAt s.records e.node.address = some r)
    (reads : s.medium.tell r = .ok told) (same : (refreshPatch told e.node).isEmpty = true) :
    Settling now e suffix s (.ok .refreshed, s.touch told.id e.node.lastSeen)
  | full {r told : Record} {p : Patch} {o : Outcome}
    (found : liveAt s.records e.node.address = some r) (reads : s.medium.tell r = .ok told)
    (revises : Revises e told p o) (last : maxVersion ≤ told.version) :
    Settling now e suffix s (failed e (.error .versionOverflow), s)
  | writes {r told : Record} {p : Patch} {o : Outcome}
    (found : liveAt s.records e.node.address = some r) (reads : s.medium.tell r = .ok told)
    (revises : Revises e told p o) :
    Settling now e suffix s (.ok o, s.rewrite (told.revised now p))

section

variable {now : Time.Instant} {e : Event} {suffix : List Char} {s : Stock} {r told : Record}
  {p : Patch} {o : Outcome} {y : Except Error Outcome × Stock}

lemma Revises.name (h : Revises e told p o) : p.name = none := by
  cases h with
  | marks lost unmarked => rfl
  | brings seen changes => exact refreshPatch_name

lemma settle_of_revises (found : liveAt s.records e.node.address = some r)
    (reads : s.medium.tell r = .ok told) (revises : Revises e told p o) :
    settle now e suffix s = revise now e told p o s := by
  simp only [settle, found, Medium.tell?_ok reads]
  cases revises with
  | marks lost unmarked => simp only [if_pos lost, if_neg unmarked]
  | brings seen changes => simp only [if_neg seen, changes, Bool.false_eq_true, if_false]

lemma settling_revise (found : liveAt s.records e.node.address = some r)
    (reads : s.medium.tell r = .ok told) (revises : Revises e told p o) :
    Settling now e suffix s (revise now e told p o s) := by
  unfold revise
  split
  next hmax => exact .full found reads revises hmax
  next => exact .writes found reads revises

/-- There is nothing else. -/
theorem settling_settle (now : Time.Instant) (e : Event) (suffix : List Char) (s : Stock) :
    Settling now e suffix s (settle now e suffix s) := by
  unfold settle
  cases hfound : s.medium.tell? (liveAt s.records e.node.address) with
  | error x => exact .unreadable hfound
  | ok found =>
    cases found with
    | none =>
      have hnobody := Medium.tell?_eq_ok_none hfound
      by_cases hk : e.kind = .lost
      · simp only [if_pos hk]
        exact .absent hk hnobody
      · simp only [if_neg hk]
        cases hfree : firstFree? s.records (candidateNames e.node suffix) with
        | none => exact .unnamed hk hnobody hfree
        | some name => exact .creates hk hnobody hfree
    | some told =>
      obtain ⟨r, hr, ht⟩ := Medium.tell?_eq_ok_some hfound
      by_cases hk : e.kind = .lost
      · simp only [if_pos hk]
        split
        next hstatus => exact .marked hk hr ht hstatus
        next hstatus => exact settling_revise hr ht (.marks hk hstatus)
      · simp only [if_neg hk]
        split
        next hsame => exact .touches hk hr ht hsame
        next hsame => exact settling_revise hr ht (.brings hk (Bool.eq_false_iff.mpr hsame))

lemma Settling.medium (h : Settling now e suffix s y) : y.2.medium = s.medium := by
  cases h <;> rfl

end

end NodeWatch.Reconcile
