import NodeWatch.Proofs.Reconcile.Session
import NodeWatch.Proofs.Time.Order
import NodeWatch.Store.Course

/-!
What a reconciliation leaves behind that nobody disturbs, even if calls of it fail.

If it fails the ledger is as it was. If not, the record at the address of the event says what the
event says, and what is said at other addresses is as it was.
-/

namespace NodeWatch.Reconcile

open Store

/-- A record says what an observation says. -/
structure Shows (o : Observation) (s : Record) : Prop where
  present : s.status ≠ .unknown
  architecture : ∀ x, o.architecture? = some x → s.architecture = x
  model : ∀ x, o.model? = some x → s.model = x
  lastSeen : o.lastSeen ≤ s.lastSeen

/-- A record keeps what an observation says nothing of. -/
structure Inherits (o : Observation) (r s : Record) : Prop where
  architecture : o.architecture? = none → s.architecture = r.architecture
  model : o.model? = none → s.model = r.model
  lastSeen : r.lastSeen ≤ s.lastSeen

/-- A record is marked, and that is all. -/
structure Marked (r s : Record) : Prop where
  status : s.status = .unknown
  architecture : s.architecture = r.architecture
  model : s.model = r.model
  lastSeen : s.lastSeen = r.lastSeen

/-- What is at the address of an event, before and after it is reconciled. -/
def Settled (e : Event) (before after : Option Record) : Prop :=
  if e.kind = .lost then
    (before = none ∧ after = none) ∨ ∃ r s, before = some r ∧ after = some s ∧ Marked r s
  else ∃ s, after = some s ∧ Shows e.node s ∧ ∀ r, before = some r → Inherits e.node r s

/-- What a reconciliation that does not fail makes of a ledger. -/
structure Settles (e : Event) (l l' : Ledger) : Prop where
  here : Settled e (liveAt l.records e.node.address) (liveAt l'.records e.node.address)
  elsewhere : ∀ a, a ≠ e.node.address → liveAt l'.records a = liveAt l.records a

section

variable {e : Event} {l l' : Ledger} (h : Settles e l l')
include h

/-- A loss marks the record that is there. -/
lemma Settles.marks (hk : e.kind = .lost) {r : Record}
    (hr : liveAt l.records e.node.address = some r) :
    ∃ s, liveAt l'.records e.node.address = some s ∧ Marked r s := by
  have hhere := h.here
  rw [Settled, if_pos hk, hr] at hhere
  rcases hhere with ⟨hnone, -⟩ | ⟨r', s, hr', hs, hmarked⟩
  · simp at hnone
  · obtain rfl := Option.some.inj hr'
    exact ⟨s, hs, hmarked⟩

/-- It makes no record. -/
lemma Settles.exists_marked (hk : e.kind = .lost) {s : Record}
    (hs : liveAt l'.records e.node.address = some s) :
    ∃ r, liveAt l.records e.node.address = some r ∧ Marked r s := by
  have hhere := h.here
  rw [Settled, if_pos hk, hs] at hhere
  rcases hhere with ⟨-, hnone⟩ | ⟨r, s', hr, hs', hmarked⟩
  · simp at hnone
  · obtain rfl := Option.some.inj hs'
    exact ⟨r, hr, hmarked⟩

lemma Settles.exists_shows (hk : Seen e) :
    ∃ s, liveAt l'.records e.node.address = some s ∧ Shows e.node s ∧
      ∀ r, liveAt l.records e.node.address = some r → Inherits e.node r s := by
  have hhere := h.here
  rwa [Settled, if_neg hk] at hhere

end

/-- What has become of a reconciliation and a ledger. -/
def Fine (e : Event) (l : Ledger) : Except Error Outcome × Ledger → Prop
  | (.error _, l') => l' = l
  | (.ok _, l') => Settles e l l'

variable {e : Event} {o : Observation} {l : Ledger} {r s : Record} {now : Time.Instant}
  {f : Record → Record}

/-! ### What is written -/

/-- To leave out a value that is there already makes no difference. -/
lemma getD_filter_ne (x? : Option String) (y : String) :
    (x?.filter (· ≠ y)).getD y = x?.getD y := by
  cases x? with
  | none => rfl
  | some x =>
    rw [Option.filter_some]
    split
    · rfl
    next h =>
      have hxy : x = y := by simpa using h
      exact hxy.symm

lemma refreshPatch_architecture : (refreshPatch r o).architecture.getD r.architecture =
    o.architecture?.getD r.architecture := by
  rw [← getD_filter_ne o.architecture? r.architecture]
  rcases refreshPatch_cases r o with ⟨h, -⟩ | ⟨h, -⟩ <;> rw [h] <;> rfl

lemma refreshPatch_model : (refreshPatch r o).model.getD r.model = o.model?.getD r.model := by
  rw [← getD_filter_ne o.model? r.model]
  rcases refreshPatch_cases r o with ⟨h, -⟩ | ⟨h, -⟩ <;> rw [h] <;> rfl

lemma eq_of_isEmpty (h : (refreshPatch r o).isEmpty = true) :
    o.architecture?.getD r.architecture = r.architecture ∧ o.model?.getD r.model = r.model := by
  have hp : refreshPatch r o = {} := by simpa [Patch.isEmpty] using h
  rw [← refreshPatch_architecture, ← refreshPatch_model, hp]
  exact ⟨rfl, rfl⟩

/-- A record with these fields shows an observation and keeps the rest. -/
lemma shows_of_getD (hs : s.status ≠ .unknown)
    (ha : s.architecture = o.architecture?.getD r.architecture)
    (hm : s.model = o.model?.getD r.model) (hl : s.lastSeen = r.lastSeen.latest o.lastSeen) :
    Shows o s ∧ Inherits o r s where
  left := {
    present := hs
    architecture := fun x hx => by rw [ha, hx]; rfl
    model := fun x hx => by rw [hm, hx]; rfl
    lastSeen := by
      rw [hl]
      exact Time.Instant.le_latest_right _ _ }
  right := {
    architecture := fun hx => by rw [ha, hx]; rfl
    model := fun hx => by rw [hm, hx]; rfl
    lastSeen := by
      rw [hl]
      exact Time.Instant.le_latest_left _ _ }

lemma shows_touched (h : (refreshPatch r o).isEmpty = true) :
    Shows o (Record.touched o.lastSeen r) ∧ Inherits o r (Record.touched o.lastSeen r) := by
  obtain ⟨ha, hm⟩ := eq_of_isEmpty h
  exact shows_of_getD (status_of_isEmpty h) ha.symm hm.symm rfl

lemma shows_revise (m : Medium) (now : Time.Instant) (h : (refreshPatch r o).isEmpty = false) :
    Shows o (m.revise now (refreshPatch r o) r) ∧
      Inherits o r (m.revise now (refreshPatch r o) r) := by
  unfold Medium.revise
  refine shows_of_getD ?_ ?_ ?_ ?_
  · rw [Medium.read_status]
    exact apply_refreshPatch_status
  · rw [Medium.read_architecture]
    exact refreshPatch_architecture
  · rw [Medium.read_model]
    exact refreshPatch_model
  · rw [Medium.read_lastSeen]
    simp only [Patch.apply, refreshPatch_lastSeen h]
    rfl

lemma shows_new (m : Medium) (name : List Char) (s : Stamp) :
    Shows o (m.read ((newRecord o name).toRecord s)) where
  present := by simp [NewRecord.toRecord, newRecord]
  architecture := fun x hx => by simp [NewRecord.toRecord, newRecord, hx]
  model := fun x hx => by simp [NewRecord.toRecord, newRecord, hx]
  lastSeen := by
    rw [Medium.read_lastSeen]
    exact Time.Instant.le_refl _

/-- What a record says already changes nothing in it. -/
lemma Shows.isEmpty (h : Shows o r) : (refreshPatch r o).isEmpty = true := by
  have hchanges : changes r o = {} := by
    have hfilter : ∀ {x? : Option String} {y : String}, (∀ x, x? = some x → y = x) →
        x?.filter (· ≠ y) = none := by
      intro x? y hxy
      cases x? with
      | none => rfl
      | some x => simp [hxy x rfl]
    simp only [changes, if_neg h.present, hfilter h.architecture, hfilter h.model]
  exact isEmpty_refreshPatch hchanges

/-! ### Where it is written -/

lemma settles_amend (ho : Orderly l.records) (hk : Seen e)
    (h : liveAt l.records e.node.address = some r) (hf : KeepsKey f)
    (hshows : Shows e.node (f r) ∧ Inherits e.node r (f r)) : Settles e l (l.amend r.id f) := by
  obtain ⟨hhere, helse⟩ := ho.liveAt_amend h (hf r)
  refine ⟨?_, helse⟩
  rw [Settled, if_neg hk, Ledger.amend, hhere, h]
  refine ⟨f r, rfl, hshows.1, fun r' hr' => ?_⟩
  obtain rfl := Option.some.inj hr'
  exact hshows.2

lemma settles_marked (ho : Orderly l.records) (hk : e.kind = .lost)
    (h : liveAt l.records e.node.address = some r) :
    Settles e l (l.amend r.id (l.medium.revise now { status := some .unknown })) := by
  obtain ⟨hhere, helse⟩ := ho.liveAt_amend h
    (l.medium.keepsKey_revise now (p := { status := some .unknown }) rfl r)
  refine ⟨?_, helse⟩
  rw [Settled, if_pos hk, Ledger.amend, hhere, h]
  refine .inr ⟨r, _, rfl, rfl, ?_⟩
  unfold Medium.revise
  constructor
  · rw [Medium.read_status]; rfl
  · rw [Medium.read_architecture]; rfl
  · rw [Medium.read_model]; rfl
  · rw [Medium.read_lastSeen]; rfl

lemma settles_unmarked (hk : e.kind = .lost)
    (h : ∀ r, liveAt l.records e.node.address = some r → r.status = .unknown) : Settles e l l := by
  refine ⟨?_, fun _ _ => rfl⟩
  rw [Settled, if_pos hk]
  cases hr : liveAt l.records e.node.address with
  | none => exact .inl ⟨rfl, rfl⟩
  | some r => exact .inr ⟨r, r, rfl, rfl, h r hr, rfl, rfl, rfl⟩

lemma settles_created (hk : Seen e) (h : liveAt l.records e.node.address = none)
    (name : List Char) : Settles e l (l.add (l.next now (newRecord e.node name))) := by
  have hadd : ∀ a, liveAt (l.add (l.next now (newRecord e.node name))).records a =
      (liveAt l.records a).or (if e.node.address = a then
        some (l.medium.read (l.next now (newRecord e.node name))) else none) := by
    intro a
    simp only [Ledger.add]
    rw [liveAt_append, Medium.read_isLive, Medium.read_address, l.next_isLive]
    congr 1
    simp [Ledger.next, NewRecord.toRecord, newRecord]
  constructor
  · rw [Settled, if_neg hk, hadd, h]
    exact ⟨_, by rw [if_pos rfl]; rfl, shows_new l.medium name _, by simp⟩
  · intro a ha
    rw [hadd, if_neg (Ne.symm ha)]
    simp

/-! ### Call by call -/

section

variable {c : Course} {n left : Nat} (hs : l.Sound)

/-- What a program makes of the ledger from its `n`th call on. -/
def outcome (c : Course) (n : Nat) (p : Session (Except Error Outcome)) (l : Ledger) :
    Except Error Outcome × Ledger :=
  ((p.run (c.step Ledger.step) (l, n)).1, (p.run (c.step Ledger.step) (l, n)).2.1)

/-- A call fails or is answered. -/
lemma outcome_ask {P : Except Error Outcome × Ledger → Prop} {q : Operation}
    {next : q.Answer → Session (Except Error Outcome)}
    (fails : ∀ s, P (outcome c (n + 1) (next (.error s)) l))
    (answers : ∀ now,
      P (outcome c (n + 1) (next (l.step now q).1) (l.step now q).2)) :
    P (outcome c n (.ask q next) l) := by
  rcases hc : c n with ⟨now, _ | s⟩
  · have hstep : c.step Ledger.step q (l, n) =
        ((l.step now q).1, (l.step now q).2, n + 1) := by
      simp only [Course.step, hc]
    rw [outcome, Program.run_ask, hstep]
    exact answers now
  · have hstep : c.step Ledger.step q (l, n) = (.error s, l, n + 1) := by
      simp only [Course.step, hc]
    rw [outcome, Program.run_ask, hstep]
    exact fails s

include hs

lemma fine_refresh (hk : Seen e) (h : liveAt l.records e.node.address = some r) :
    Fine e l (outcome c n (closing e (refresh e.node left r)) l) := by
  obtain ⟨hm, hl, -⟩ := liveAt_eq_some h
  have hwith := hs.orderly.withId_of_mem hm
  induction left generalizing n with
  | zero => rfl
  | succ left ih =>
    cases hp : (refreshPatch r e.node).isEmpty with
    | true =>
      rw [refresh_of_isEmpty hp, closing_ask]
      refine outcome_ask (fun s => rfl) fun now => ?_
      rw [Ledger.step_touch hwith]
      exact settles_amend hs.orderly hk h (keepsKey_touched _) (shows_touched hp)
    | false =>
      have hreread : ∀ n, Fine e l (outcome c n (closing e (reread e.node left r)) l) := by
        intro n
        rw [reread, closing_ask]
        refine outcome_ask (fun s => rfl) fun now => ?_
        have hget : l.step now (.get r.id) = (.ok (some r), l) := by
          simp only [Ledger.step, hwith]
        rw [hget]
        exact ih
      rw [refresh_of_changes hp, closing_ask]
      refine outcome_ask (fun s => ?_) fun now => ?_
      · cases s with
        | conflict id v w =>
          simp only
          split
          · rfl
          · exact hreread _
        | _ => rfl
      · by_cases hmax : maxVersion ≤ r.version
        · rw [Ledger.step_update_overflow hwith hmax]
          rfl
        · rw [hs.step_update now refreshPatch_name hm hl hmax]
          exact settles_amend hs.orderly hk h (l.medium.keepsKey_revise now refreshPatch_name)
            (shows_revise l.medium now hp)

lemma fine_refind (hk : Seen e) : Fine e l (outcome c n (refind e) l) := by
  rw [refind]
  refine outcome_ask (fun s => rfl) fun now => ?_
  cases h : liveAt l.records e.node.address with
  | none =>
    simp only [Ledger.step, h]
    rfl
  | some r =>
    simp only [Ledger.step, h]
    exact fine_refresh hs hk h

lemma fine_create (hk : Seen e) (h : liveAt l.records e.node.address = none)
    (names : List (List Char)) : Fine e l (outcome c n (create e names) l) := by
  induction names generalizing n with
  | nil => rfl
  | cons name names ih =>
    have hnext : ∀ s : Store.Error, Fine e l (outcome c (n + 1)
        (created e names (.error s : (Operation.create (newRecord e.node name)).Answer)) l) := by
      intro s
      rcases s with _ | _ | ⟨⟨_ | _ | _⟩, _⟩ | _ | _ | _ | _ | _
      case duplicate.name => exact ih
      case duplicate.ip => exact fine_refind hs hk
      all_goals rfl
    rw [create_cons]
    refine outcome_ask hnext fun now => ?_
    cases hc : l.medium.clash? l.records (l.next now (newRecord e.node name)) with
    | none =>
      rw [Ledger.step_create_free hc]
      exact settles_created hk h name
    | some u =>
      rw [Ledger.step_create_clash hc]
      exact hnext _

lemma fine_markUnknown (hk : e.kind = .lost) :
    Fine e l (outcome c n (closing e (markUnknown e.node left)) l) := by
  induction left generalizing n with
  | zero => rfl
  | succ left ih =>
    rw [markUnknown_succ, closing_ask]
    refine outcome_ask (fun s => rfl) fun now => ?_
    cases h : liveAt l.records e.node.address with
    | none =>
      simp only [Ledger.step, h]
      exact settles_unmarked hk (by simp [h])
    | some r =>
      obtain ⟨hm, hl, -⟩ := liveAt_eq_some h
      have hwith := hs.orderly.withId_of_mem hm
      simp only [Ledger.step, h]
      by_cases hr : r.status = .unknown
      · rw [if_pos hr]
        exact settles_unmarked hk fun s hs => by
          rw [h] at hs
          obtain rfl := Option.some.inj hs
          exact hr
      · rw [if_neg hr, mark, closing_ask]
        refine outcome_ask (fun s => ?_) fun now => ?_
        · cases s with
          | conflict id v w =>
            simp only
            split
            · rfl
            · exact ih
          | _ => rfl
        · by_cases hmax : maxVersion ≤ r.version
          · rw [Ledger.step_update_overflow hwith hmax]
            rfl
          · rw [hs.step_update now rfl hm hl hmax]
            exact settles_marked hs.orderly hk h

end

/-- **A reconciliation that nobody disturbs** brings the record in line with the event, or leaves
the ledger as it was, whichever of its calls fail. -/
theorem fine_reconcile (hs : l.Sound) (c : Course) (e : Event) (suffix : List Char) :
    Fine e l (c.run Ledger.step (reconcile e suffix) l) := by
  change Fine e l (outcome c 0 (reconcile e suffix) l)
  by_cases hk : e.kind = .lost
  · rw [reconcile_lost hk]
    exact fine_markUnknown hs hk
  · rw [reconcile_seen hk]
    refine outcome_ask (fun s => rfl) fun now => ?_
    cases h : liveAt l.records e.node.address with
    | none =>
      simp only [Ledger.step, h]
      exact fine_create hs hk h _
    | some r =>
      simp only [Ledger.step, h]
      exact fine_refresh hs hk h

/-! ### Names that are all taken -/

/-- What ends a part of a reconciliation is an outcome or a failure of the store. -/
lemma closing_ne_exhausted (p : Session (Except Store.Error Outcome)) :
    (outcome c n (closing e p) l).1 ≠ .error (.nameExhausted a) := by
  have hrun : (outcome c n (closing e p) l).1 =
      failed e (p.run (c.step Ledger.step) (l, n)).1 :=
    congrArg Prod.fst (Program.run_bind (c.step Ledger.step) p _ (l, n))
  rw [hrun]
  cases (p.run (c.step Ledger.step) (l, n)).1 with
  | ok x => simp [failed]
  | error s => simp [failed]

/-- A name is needed only where no record is. -/
lemma vacant_of_exhausted (c : Course) (e : Event) (suffix : List Char)
    (h : (c.run Ledger.step (reconcile e suffix) l).1 = .error (.nameExhausted a)) :
    liveAt l.records e.node.address = none := by
  change (outcome c 0 (reconcile e suffix) l).1 = _ at h
  revert h
  by_cases hk : e.kind = .lost
  · rw [reconcile_lost hk]
    exact fun h => absurd h (closing_ne_exhausted _)
  · rw [reconcile_seen hk]
    refine outcome_ask (P := fun x => x.1 = .error (.nameExhausted a) → _) (fun s h => ?_)
      fun now h => ?_
    · simp [outcome, failed] at h
    · cases hr : liveAt l.records e.node.address with
      | none => rfl
      | some r =>
        simp only [Ledger.step, hr] at h
        exact absurd h (closing_ne_exhausted _)

end NodeWatch.Reconcile
