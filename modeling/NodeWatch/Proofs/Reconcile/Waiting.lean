import NodeWatch.Proofs.Reconcile.Alone
import NodeWatch.Proofs.Store.Pending

/-!
A reconciliation among others, one call at a time.

Until its decisive call a reconciliation has changed nothing, and what it has learnt is true but for
age. At its decisive call it does what it would do alone and undisturbed. That is its last call or,
if a sign of life is all there is to write, the call before.
-/

namespace NodeWatch.Reconcile

open Store

/-- Nothing is left to write but a sign of life. -/
def touching (e : Event) (id : String) (t : Time.Instant) : Session (Except Error Outcome) :=
  .ask (.touch id t) fun a => match a with
    | .error s => .done (failed e (.error s))
    | .ok _ => .done (.ok .refreshed)

/-- Where a reconciliation may stand before its decisive call; `n` bounds the age of what it knows
of the ledger. -/
inductive Waits (n : Nat) (l : Ledger) (e : Event) (suffix : List Char) :
    Session (Except Error Outcome) → Prop where
  | starts (seen : Seen e) : Waits n l e suffix (reconcile e suffix)
  | changes (seen : Seen e) {left : Nat} {r : Record}
    (full : (refreshPatch r e.node).isEmpty = false) (known : Known n l e.node.address r) :
    Waits n l e suffix (closing e (refresh e.node (left + 1) r))
  | rereads (seen : Seen e) {left : Nat} {r : Record} (known : Known n l e.node.address r) :
    Waits n l e suffix (closing e (reread e.node (left + 1) r))
  | names (seen : Seen e) {front back : List (List Char)} {name : List Char}
    (all : candidateNames e.node suffix = front ++ name :: back)
    (taken : ∀ x ∈ front, ∃ s ∈ l.records, s.isLive = true ∧ s.name = String.ofList x) :
    Waits n l e suffix (create e (name :: back))
  | refinds (seen : Seen e) {r : Record} (known : Known n l e.node.address r) :
    Waits n l e suffix (refind e)
  | finds (lost : e.kind = .lost) {left : Nat} :
    Waits n l e suffix (closing e (markUnknown e.node (left + 1)))
  | marks (lost : e.kind = .lost) {left : Nat} {r : Record} (status : r.status ≠ .unknown)
    (known : Known n l e.node.address r) :
    Waits n l e suffix (closing e (mark e.node left r))

/-- Where a reconciliation stands after its decisive call. -/
inductive Ends (l : Ledger) (e : Event) : Outcome → Session (Except Error Outcome) → Prop where
  | finished (o : Outcome) : Ends l e o (.done (.ok o))
  | touches {id : String} (known : ∃ r ∈ l.records, r.id = id) (t : Time.Instant) :
    Ends l e .refreshed (touching e id t)

/-- All signs of life that programs are about to write are for records that are there. -/
def Founded {α : Type} (l : Ledger) (ps : List (Session α)) : Prop :=
  ∀ p ∈ ps, ∀ id t, pending? p = some (id, t) → ∃ r ∈ l.records, r.id = id

/-- What one call brings about. -/
inductive Moves (n : Nat) (l : Ledger) (e : Event) (suffix : List Char) (now : Time.Instant) :
    Session (Except Error Outcome) → Ledger → Prop where
  | waits {p} (waits : Waits n l e suffix p) : Moves n l e suffix now p l
  | fails (x : Error) : Moves n l e suffix now (.done (.error x)) l
  | settles {o p l'} (ends : Ends l' e o p)
    (effect : ∀ ps : List (Session (Except Error Outcome)), Founded l ps →
      alone now e suffix (l.ahead ps) = (.ok o, (l'.ahead ps).after p)) :
    Moves n l e suffix now p l'

variable {n : Nat} {l l' : Ledger} {e : Event} {suffix : List Char} {now : Time.Instant}
  {r : Record} {left : Nat} {o : Outcome} {p : Session (Except Error Outcome)}

/-! ### The calls of others -/

/-- What is known stays true while others make a call. -/
lemma Waits.advance (h : Waits n l e suffix p) (hl : l.Advances l') (hs : l'.Sound) :
    Waits (n + 1) l' e suffix p := by
  cases h with
  | starts seen => exact .starts seen
  | changes seen full known => exact .changes seen full (known.advance hl hs)
  | rereads seen known => exact .rereads seen (known.advance hl hs)
  | names seen all taken => exact .names seen all fun x hx => hl.named (taken x hx)
  | refinds seen known => exact .refinds seen (known.advance hl hs)
  | finds lost => exact .finds lost
  | marks lost status known => exact .marks lost status (known.advance hl hs)

lemma Ends.advance (h : Ends l e o p) (hl : l.Advances l') : Ends l' e o p := by
  cases h with
  | finished o => exact .finished o
  | touches known t => exact .touches (hl.identified known) t

/-! ### Its own calls -/

section

variable (hs : l.Sound)
include hs

/-- The record is read. If there is nothing to change in it, that was decisive. -/
lemma moves_of_read (seen : Seen e) (h : liveAt l.records e.node.address = some r) :
    Moves n l e suffix now (closing e (refresh e.node (left + 1) r)) l := by
  cases hp : (refreshPatch r e.node).isEmpty with
  | false => exact .waits (.changes seen hp (.of_liveAt hs h))
  | true =>
    have hprog : closing e (refresh e.node (left + 1) r) =
        touching e r.id e.node.lastSeen := by
      rw [refresh_of_isEmpty hp, closing_ask, touching]
      congr 1
      funext a
      cases a <;> rfl
    rw [hprog]
    refine .settles (.touches ⟨r, (liveAt_eq_some h).1, rfl⟩ _) fun ps _ => ?_
    obtain ⟨s, hlive, hid, -, hagrees⟩ := Ledger.ahead_liveAt_some ps h
    have hp' : (refreshPatch s e.node).isEmpty = true := by
      rw [refreshPatch_congr hagrees.status hagrees.architecture hagrees.model]
      exact hp
    rw [alone_seen_touches (hs.ahead ps) seen hlive hp', hid,
      Ledger.after_of_some (p := touching e r.id e.node.lastSeen) rfl]

lemma once_starts (seen : Seen e) :
    Moves n l e suffix now ((reconcile e suffix).once (Ledger.step now) l).1
      ((reconcile e suffix).once (Ledger.step now) l).2 := by
  rw [reconcile_seen seen, Program.once_ask]
  cases h : liveAt l.records e.node.address with
  | some r =>
    simp only [Ledger.step, h]
    exact moves_of_read hs seen h
  | none =>
    simp only [Ledger.step, h]
    have hall : candidateNames e.node suffix = [] ++ candidateNames e.node suffix := rfl
    exact .waits (.names seen hall (by simp))

lemma once_rereads (seen : Seen e) (known : Known n l e.node.address r) :
    Moves n l e suffix now
      ((closing e (reread e.node (left + 1) r)).once (Ledger.step now) l).1
      ((closing e (reread e.node (left + 1) r)).once (Ledger.step now) l).2 := by
  obtain ⟨s, hlive, hid⟩ := known.exists
  have hget : l.step now (.get r.id) = (.ok (some s), l) := by
    rw [← hid]
    simp only [Ledger.step, hs.orderly.withId_of_mem (liveAt_eq_some hlive).1]
  rw [reread, closing_ask, Program.once_ask, hget]
  exact moves_of_read hs seen hlive

lemma once_refinds (seen : Seen e) (known : Known n l e.node.address r) :
    Moves n l e suffix now ((refind e).once (Ledger.step now) l).1
      ((refind e).once (Ledger.step now) l).2 := by
  obtain ⟨s, hlive, -⟩ := known.exists
  rw [refind, Program.once_ask, find_eq hlive]
  exact moves_of_read hs seen hlive

/-- A write is decisive if it finds the record as it was read. -/
lemma once_changes (hn : l.medium = .table → n < 2 ^ 63) (seen : Seen e)
    (full : (refreshPatch r e.node).isEmpty = false) (known : Known n l e.node.address r) :
    Moves n l e suffix now
      ((closing e (refresh e.node (left + 1) r)).once (Ledger.step now) l).1
      ((closing e (refresh e.node (left + 1) r)).once (Ledger.step now) l).2 := by
  obtain ⟨s, hlive, hid⟩ := known.exists
  obtain ⟨hm, hl, -⟩ := liveAt_eq_some hlive
  have hwith := hs.orderly.withId_of_mem hm
  rw [refresh_of_changes full, closing_ask, Program.once_ask, ← hid]
  by_cases hv : s.version = r.version
  · have hagrees := known.agrees hn hlive hv
    have hpatch := refreshPatch_congr (o := e.node) hagrees.status hagrees.architecture
      hagrees.model
    rw [← hpatch] at full ⊢
    rw [← hv]
    by_cases hmax : maxVersion ≤ s.version
    · rw [Ledger.step_update_overflow hwith hmax]
      exact .fails _
    · rw [hs.step_update now refreshPatch_name hm hl hmax]
      refine .settles (.finished _) fun ps _ => ?_
      obtain ⟨s', hlive', hid', hv', hagrees'⟩ := Ledger.ahead_liveAt_some ps hlive
      have hpatch' := refreshPatch_congr (o := e.node) hagrees'.status hagrees'.architecture
        hagrees'.model
      rw [alone_seen_changes (hs.ahead ps) seen hlive' (by rw [hpatch']; exact full)
        (by rw [hv']; exact hmax), hpatch', hid', Ledger.ahead_medium]
      rw [Ledger.ahead_amend (l.medium.keepsKey_revise now refreshPatch_name)
        (fun t => l.medium.revise_touched now t _)]
      rfl
  · rw [Ledger.step_update_conflict hwith hv]
    cases left with
    | zero => exact .fails _
    | succ left => exact .waits (.rereads seen known)

lemma once_names (seen : Seen e) {front back : List (List Char)} {name : List Char}
    (all : candidateNames e.node suffix = front ++ name :: back)
    (taken : ∀ x ∈ front, ∃ s ∈ l.records, s.isLive = true ∧ s.name = String.ofList x) :
    Moves n l e suffix now ((create e (name :: back)).once (Ledger.step now) l).1
      ((create e (name :: back)).once (Ledger.step now) l).2 := by
  rw [create_cons, Program.once_ask]
  cases hc : l.medium.clash? l.records (l.next now (newRecord e.node name)) with
  | none =>
    rw [Ledger.step_create_free hc]
    refine .settles (.finished _) fun ps hps => ?_
    have hfree := Medium.not_taken_of_clash?_eq_none (l.next_isLive now _) (hs.next_id now _) hc
    have hnone : liveAt l.records e.node.address = none := by
      cases hlive : liveAt l.records e.node.address with
      | none => rfl
      | some s =>
        obtain ⟨hm, hl, ha⟩ := liveAt_eq_some hlive
        exact absurd ⟨s, hm, hl, .inl ha⟩ hfree
    rw [alone_seen_creates (hs.ahead ps) seen (Ledger.ahead_liveAt_none hnone) all
      (fun x hx => Ledger.ahead_named (taken x hx))
      (by rw [Ledger.ahead_next, Ledger.ahead_clash?]; exact hc), Ledger.ahead_next]
    rw [Ledger.ahead_add]
    · rfl
    · intro p hp id t hpend he
      obtain ⟨s, hsm, rfl⟩ := hps p hp id t hpend
      exact hs.next_id now _ s hsm he.symm
  | some u =>
    rw [Ledger.step_create_clash hc]
    obtain ⟨s, hsm, hl, -, ⟨rfl, ha⟩ | ⟨rfl, hn⟩⟩ := Medium.clash?_eq_some hc
    · have hlive : liveAt l.records e.node.address = some s :=
        hs.orderly.liveAt_of_mem hsm hl ha
      exact .waits (.refinds seen (.of_liveAt hs hlive))
    · cases back with
      | nil => exact .fails _
      | cons next back =>
        have hall : candidateNames e.node suffix = (front ++ [name]) ++ next :: back := by
          rw [all]
          simp
        refine .waits (.names seen hall fun x hx => ?_)
        rcases List.mem_append.mp hx with hx | hx
        · exact taken x hx
        · obtain rfl := List.mem_singleton.mp hx
          exact ⟨s, hsm, hl, hn⟩

lemma once_finds (lost : e.kind = .lost) :
    Moves n l e suffix now
      ((closing e (markUnknown e.node (left + 1))).once (Ledger.step now) l).1
      ((closing e (markUnknown e.node (left + 1))).once (Ledger.step now) l).2 := by
  rw [markUnknown_succ, closing_ask, Program.once_ask]
  cases h : liveAt l.records e.node.address with
  | none =>
    simp only [Ledger.step, h]
    refine .settles (.finished _) fun ps _ => ?_
    rw [alone_lost_none lost (Ledger.ahead_liveAt_none h)]
    rfl
  | some r =>
    rw [find_eq h]
    by_cases hr : r.status = .unknown
    · simp only [hr, if_true]
      refine .settles (.finished _) fun ps _ => ?_
      obtain ⟨s, hlive, -, -, hagrees⟩ := Ledger.ahead_liveAt_some ps h
      rw [alone_lost_unknown lost hlive (hagrees.status.trans hr)]
      rfl
    · simp only [hr, if_false]
      exact .waits (.marks lost hr (.of_liveAt hs h))

lemma once_marks (hn : l.medium = .table → n < 2 ^ 63) (lost : e.kind = .lost)
    (status : r.status ≠ .unknown) (known : Known n l e.node.address r) :
    Moves n l e suffix now ((closing e (mark e.node left r)).once (Ledger.step now) l).1
      ((closing e (mark e.node left r)).once (Ledger.step now) l).2 := by
  obtain ⟨s, hlive, hid⟩ := known.exists
  obtain ⟨hm, hl, -⟩ := liveAt_eq_some hlive
  have hwith := hs.orderly.withId_of_mem hm
  rw [mark, closing_ask, Program.once_ask, ← hid]
  by_cases hv : s.version = r.version
  · have hagrees := known.agrees hn hlive hv
    rw [← hv]
    by_cases hmax : maxVersion ≤ s.version
    · rw [Ledger.step_update_overflow hwith hmax]
      exact .fails _
    · rw [hs.step_update now rfl hm hl hmax]
      refine .settles (.finished _) fun ps _ => ?_
      obtain ⟨s', hlive', hid', hv', hagrees'⟩ := Ledger.ahead_liveAt_some ps hlive
      have hstatus : s'.status ≠ .unknown := by
        rw [hagrees'.status, hagrees.status]
        exact status
      rw [alone_lost_marks (hs.ahead ps) lost hlive' hstatus (by rw [hv']; exact hmax), hid',
        Ledger.ahead_medium]
      rw [Ledger.ahead_amend (l.medium.keepsKey_revise now rfl)
        (fun t => l.medium.revise_touched now t _)]
      rfl
  · rw [Ledger.step_update_conflict hwith hv]
    cases left with
    | zero => exact .fails _
    | succ left => exact .waits (.finds lost)

/-- **One call of a reconciliation that is still waiting**: it goes on waiting, fails, or does at
once all that it would do alone. -/
theorem Waits.once (now : Time.Instant) (hn : l.medium = .table → n < 2 ^ 63)
    (h : Waits n l e suffix p) :
    Moves n l e suffix now (p.once (Ledger.step now) l).1 (p.once (Ledger.step now) l).2 := by
  cases h with
  | starts seen => exact once_starts hs seen
  | changes seen full known => exact once_changes hs hn seen full known
  | rereads seen known => exact once_rereads hs seen known
  | names seen all taken => exact once_names hs seen all taken
  | refinds seen known => exact once_refinds hs seen known
  | finds lost => exact once_finds hs lost
  | marks lost status known => exact once_marks hs hn lost status known

end

end NodeWatch.Reconcile
