import NodeWatch.Proofs.Program
import NodeWatch.Proofs.Store.Ledger
import NodeWatch.Reconcile

/-!
The questions of a reconciliation, one by one.

Each part of it is written as the question that it asks first and what it makes of the answer.
-/

namespace NodeWatch.Reconcile

open Store

variable {e : Event} {o : Observation} {r : Record} {left : Nat}

/-- An event that tells that a node is there. -/
def Seen (e : Event) : Prop := e.kind ≠ .lost

/-- A part of a reconciliation as the end of it. -/
def closing (e : Event) (p : Session (Except Store.Error Outcome)) :
    Session (Except Error Outcome) :=
  p >>= fun x => pure (failed e x)

lemma closing_ask (q : Operation) (next : q.Answer → Session (Except Store.Error Outcome)) :
    closing e (.ask q next) = .ask q fun a => closing e (next a) := rfl

/-! ### What an observation changes -/

/-- The changes without the sign of life that comes with them. -/
def changes (r : Record) (o : Observation) : Patch where
  architecture := o.architecture?.filter (· ≠ r.architecture)
  model := o.model?.filter (· ≠ r.model)
  status := if r.status = .unknown then some .discovered else none

lemma isEmpty_refreshPatch (h : changes r o = {}) : (refreshPatch r o).isEmpty = true := by
  have hpatch : refreshPatch r o = if (changes r o).isEmpty = true then changes r o
    else { changes r o with lastSeen := some o.lastSeen } := rfl
  rw [hpatch, h]
  rfl

lemma refreshPatch_cases (r : Record) (o : Observation) :
    (refreshPatch r o = changes r o ∧ (refreshPatch r o).isEmpty = true) ∨
      (refreshPatch r o = { changes r o with lastSeen := some o.lastSeen } ∧
        (refreshPatch r o).isEmpty = false) := by
  have h : refreshPatch r o = if (changes r o).isEmpty = true then changes r o
    else { changes r o with lastSeen := some o.lastSeen } := rfl
  rw [h]
  split
  next he => exact .inl ⟨rfl, he⟩
  next => exact .inr ⟨rfl, by simp [Patch.isEmpty]⟩

@[simp] lemma refreshPatch_name : (refreshPatch r o).name = none := by
  rcases refreshPatch_cases r o with ⟨h, -⟩ | ⟨h, -⟩ <;> rw [h] <;> rfl

lemma refreshPatch_status : (refreshPatch r o).status =
    if r.status = .unknown then some .discovered else none := by
  rcases refreshPatch_cases r o with ⟨h, -⟩ | ⟨h, -⟩ <;> rw [h] <;> rfl

/-- With a change comes the sign of life. -/
lemma refreshPatch_lastSeen (h : (refreshPatch r o).isEmpty = false) :
    (refreshPatch r o).lastSeen = some o.lastSeen := by
  rcases refreshPatch_cases r o with ⟨-, he⟩ | ⟨hp, -⟩
  · simp [he] at h
  · rw [hp]

lemma eq_of_refreshPatch_lastSeen {t : Time.Instant}
    (h : (refreshPatch r o).lastSeen = some t) : t = o.lastSeen := by
  rcases refreshPatch_cases r o with ⟨hp, -⟩ | ⟨hp, -⟩
  · rw [hp] at h
    simp [changes] at h
  · rw [hp] at h
    exact (Option.some.inj h).symm

/-- Three fields of a record decide what an observation changes in it. -/
lemma refreshPatch_congr {s : Record} (hs : s.status = r.status)
    (ha : s.architecture = r.architecture) (hm : s.model = r.model) :
    refreshPatch s o = refreshPatch r o := by
  unfold refreshPatch
  rw [hs, ha, hm]

/-- A record that nobody takes for lost stays so. -/
lemma apply_refreshPatch_status : ((refreshPatch r o).apply r).status ≠ .unknown := by
  simp only [Patch.apply, refreshPatch_status]
  split
  next => simp
  next h => simpa using h

lemma status_of_isEmpty (h : (refreshPatch r o).isEmpty = true) : r.status ≠ .unknown := by
  intro hs
  have hp : refreshPatch r o = {} := by simpa [Patch.isEmpty] using h
  have := refreshPatch_status (r := r) (o := o)
  rw [hp, if_pos hs] at this
  simp at this

/-! ### The parts -/

/-- What follows a write that has lost: the record is read again. -/
def reread (o : Observation) (left : Nat) (r : Record) : Session (Except Store.Error Outcome) :=
  .ask (.get r.id) fun a => match a with
    | .error s => .done (.error s)
    | .ok none => .done (.error (.notFound r.id))
    | .ok (some r) => refresh o left r

/-- What follows if another writer was first with the address. -/
def refind (e : Event) : Session (Except Error Outcome) :=
  .ask (.findByAddress e.node.address) fun a => match a with
    | .error s => .done (failed e (.error s))
    | .ok none => .done (failed e (.error (.notFound e.node.address.toString)))
    | .ok (some r) => closing e (refresh e.node attempts r)

/-- What follows if the record of a lost node is to be marked. -/
def mark (o : Observation) (left : Nat) (r : Record) : Session (Except Store.Error Outcome) :=
  .ask (.update r.id r.version { status := some .unknown }) fun a => match a with
    | .ok _ => .done (.ok .markedUnknown)
    | .error (.conflict id v w) =>
      if left = 0 then .done (.error (.conflict id v w)) else markUnknown o left
    | .error s => .done (.error s)

lemma reconcile_lost (h : e.kind = .lost) (suffix : List Char) :
    reconcile e suffix = closing e (markUnknown e.node attempts) := by
  unfold reconcile
  rw [h]
  rfl

lemma reconcile_seen (h : Seen e) (suffix : List Char) :
    reconcile e suffix = .ask (.findByAddress e.node.address) fun a => match a with
      | .error s => .done (failed e (.error s))
      | .ok (some r) => closing e (refresh e.node attempts r)
      | .ok none => create e (candidateNames e.node suffix) := by
  unfold Seen at h
  unfold reconcile
  cases hk : e.kind with
  | lost => exact absurd hk h
  | discovered => rfl
  | updated => rfl

lemma refresh_of_isEmpty (h : (refreshPatch r o).isEmpty = true) :
    refresh o (left + 1) r = .ask (.touch r.id o.lastSeen) fun a => match a with
      | .error s => .done (.error s)
      | .ok _ => .done (.ok .refreshed) := by
  rw [refresh]
  simp only [h, if_true]
  rfl

lemma refresh_of_changes (h : (refreshPatch r o).isEmpty = false) :
    refresh o (left + 1) r = .ask (.update r.id r.version (refreshPatch r o)) fun a => match a with
      | .ok _ =>
        .done (.ok (if (refreshPatch r o).status = some .discovered then .recovered else .updated))
      | .error (.conflict id v w) =>
        if left = 0 then .done (.error (.conflict id v w)) else reread o left r
      | .error s => .done (.error s) := by
  rw [refresh]
  simp only [h, Bool.false_eq_true, if_false]
  change Program.ask _ _ = _
  congr 1
  funext a
  rcases a with s | r'
  · cases s <;> rfl
  · rfl

/-- What follows the answer to the creation of a record, with `names` left to try. -/
def created {n : NewRecord} (e : Event) (names : List (List Char)) :
    (Operation.create n).Answer → Session (Except Error Outcome)
  | .ok _ => .done (.ok .created)
  | .error (.duplicate .name _) => create e names
  | .error (.duplicate .ip _) => refind e
  | .error s => .done (failed e (.error s))

lemma create_cons (name : List Char) (names : List (List Char)) :
    create e (name :: names) = .ask (.create (newRecord e.node name)) (created e names) := by
  rw [create]
  refine congrArg (Program.ask _) (funext fun a => ?_)
  rcases a with (_ | _ | ⟨⟨_ | _ | _⟩, _⟩ | _ | _ | _ | _ | _) | _
  all_goals rfl

lemma markUnknown_succ (left : Nat) :
    markUnknown o (left + 1) = .ask (.findByAddress o.address) fun a => match a with
      | .error s => .done (.error s)
      | .ok none => .done (.ok .ignored)
      | .ok (some r) =>
        if r.status = .unknown then .done (.ok .ignored) else mark o left r := by
  rw [markUnknown]
  rfl

/-! ### What is asked -/

variable {m : Medium}

lemma refresh_asks (h : m.Keeps o.lastSeen) (left : Nat) (r : Record) :
    (refresh o left r).Asks (Operation.Plain m) := by
  induction left generalizing r with
  | zero => exact .done _
  | succ left ih =>
    cases hp : (refreshPatch r o).isEmpty with
    | true =>
      rw [refresh_of_isEmpty hp]
      refine .ask h fun a => ?_
      cases a <;> exact .done _
    | false =>
      rw [refresh_of_changes hp]
      have hplain : Operation.Plain m (.update r.id r.version (refreshPatch r o)) :=
        ⟨refreshPatch_name, fun t ht => by rw [eq_of_refreshPatch_lastSeen ht]; exact h⟩
      refine .ask hplain fun a => ?_
      rcases a with s | r'
      · cases s with
        | conflict id v w =>
          simp only
          split
          · exact .done _
          · refine .ask trivial fun b => ?_
            rcases b with s | _ | r'
            · exact .done _
            · exact .done _
            · exact ih r'
        | _ => exact .done _
      · exact .done _

lemma closing_asks {p : Session (Except Store.Error Outcome)} (h : p.Asks (Operation.Plain m)) :
    (closing e p).Asks (Operation.Plain m) :=
  h.bind fun _ => .done _

lemma create_asks (h : m.Keeps e.node.lastSeen) (names : List (List Char)) :
    (create e names).Asks (Operation.Plain m) := by
  induction names with
  | nil => exact .done _
  | cons name names ih =>
    rw [create_cons]
    refine .ask h fun a => ?_
    rcases a with s | r
    · rcases s with _ | _ | ⟨⟨_ | _ | _⟩, _⟩ | _ | _ | _ | _ | _
      case duplicate.ip =>
        refine .ask trivial fun b => ?_
        rcases b with s | _ | r
        · exact .done _
        · exact .done _
        · exact closing_asks (refresh_asks h _ r)
      case duplicate.name => exact ih
      all_goals exact .done _
    · exact .done _

lemma markUnknown_asks (o : Observation) (left : Nat) :
    (markUnknown o left).Asks (Operation.Plain m) := by
  induction left with
  | zero => exact .done _
  | succ left ih =>
    rw [markUnknown_succ]
    refine .ask trivial fun a => ?_
    rcases a with s | _ | r
    · exact .done _
    · exact .done _
    · simp only
      split
      · exact .done _
      · have hplain : Operation.Plain m
            (.update r.id r.version { status := some .unknown }) := ⟨rfl, by simp⟩
        refine .ask hplain fun b => ?_
        rcases b with s | r'
        · cases s with
          | conflict id v w =>
            simp only
            split
            · exact .done _
            · exact ih
          | _ => exact .done _
        · exact .done _

/-- A reconciliation asks nothing that a store does not answer as its ledger does. -/
theorem reconcile_asks (h : m.Keeps e.node.lastSeen) (suffix : List Char) :
    (reconcile e suffix).Asks (Operation.Plain m) := by
  by_cases hk : e.kind = .lost
  · rw [reconcile_lost hk]
    exact closing_asks (markUnknown_asks _ _)
  · rw [reconcile_seen hk]
    refine .ask trivial fun a => ?_
    rcases a with s | _ | r
    · exact .done _
    · exact create_asks h _
    · exact closing_asks (refresh_asks h _ r)

end NodeWatch.Reconcile
