import NodeWatch.Proofs.Store.History
import NodeWatch.Store.Course

/-!
Calls that leave a store as it is: those that only look, and those that fail.

A store in memory that was told to fail some calls counts them down. That is not taken for a
change here.
-/

namespace NodeWatch.Store

/-- The call only looks. -/
def Operation.Looks : Operation → Prop
  | .findByAddress _ | .findByName _ | .get _ | .list => True
  | .create _ | .update .. | .touch .. | .delete _ => False

/-- The call only looks, or it has failed. -/
def Operation.Idle (op : Operation) (a : op.Answer) : Prop := op.Looks ∨ ∃ e, a = .error e

variable {op : Operation} {s : Stamp} {e : Error}

/-! ### Tables -/

namespace Sql

namespace Table

variable {t : Table} {st : Statement} {p : Row → Bool} {g : Row → Row} {f : Fault}

lemma exec_selectOne (k : Key) : (exec (.selectOne k) t).2 = t := by
  simp only [exec]
  split <;> rfl

lemma exec_selectLive : (exec .selectLive t).2 = t := by
  simp only [exec]
  split <;> rfl

lemma update_of_error (h : (t.update p g).1 = .error f) : (t.update p g).2 = t := by
  cases hc : t.change p g with
  | error f' => simp only [update, hc]
  | ok x =>
    simp only [update, hc] at h
    cases h

lemma update_there_of_error
    (h : (if t.exists_ then t.update p g else (.error .noTable, t)).1 = .error f) :
    (if t.exists_ then t.update p g else (.error .noTable, t)).2 = t := by
  split
  next hthere =>
    rw [if_pos hthere] at h
    exact update_of_error h
  next => rfl

lemma exec_of_error (h : (exec st t).1 = .error f) : (exec st t).2 = t := by
  cases st with
  | selectOne k => exact exec_selectOne k
  | selectLive => exact exec_selectLive
  | insert r =>
    simp only [exec] at h ⊢
    split
    next => rfl
    next hthere =>
      split
      next => rfl
      next hfree =>
        cases hc : clash? t.rows r with
        | some c => rfl
        | none =>
          rw [if_neg hthere, if_neg hfree, hc] at h
          cases h
  | replace _ | setLastSeen _ _ | markDeleted _ _ | setColumn _ _ _ =>
    exact update_there_of_error h

end Table

variable {t : Table}

/-- A script that writes last has not written if it fails. -/
lemma WritesLast.run_of_error {β : Type} {p : Script (Except Error β)} (hp : WritesLast p)
    (h : (p.run Table.exec t).1 = .error e) : (p.run Table.exec t).2 = t := by
  induction hp with
  | done a => rfl
  | looks k next later ih =>
    rw [Program.run_ask, Table.exec_selectOne] at h ⊢
    exact ih _ h
  | lists next later ih =>
    rw [Program.run_ask, Table.exec_selectLive] at h ⊢
    exact ih _ h
  | writes st f g =>
    rw [Program.run_ask] at h ⊢
    cases ha : (Table.exec st t).1 with
    | error x => exact Table.exec_of_error ha
    | ok x =>
      rw [ha] at h
      cases h

lemma step_of_idle (h : op.Idle (step s op t).1) : (step s op t).2 = t := by
  rcases h with hlooks | ⟨e, herror⟩
  · cases op with
    | findByAddress _ | findByName _ | get _ => exact Table.exec_selectOne _
    | list => exact Table.exec_selectLive
    | _ => exact hlooks.elim
  · exact (script_writesLast s op).run_of_error herror

end Sql

/-! ### In memory -/

namespace Memory

variable {m : Memory}

lemma answer_of_error (h : (m.answer s op).1 = .error e) : (m.answer s op).2 = m := by
  cases op with
  | findByAddress _ | findByName _ | get _ | list => rfl
  | create n =>
    simp only [answer] at h ⊢
    cases hc : m.clash? (n.toRecord s) with
    | some x => rfl
    | none =>
      rw [hc] at h
      cases h
  | update id v p =>
    simp only [answer] at h ⊢
    cases hf : m.find? id with
    | none => rfl
    | some r =>
      simp only [hf] at h ⊢
      split
      next => rfl
      next hv =>
        split
        next => rfl
        next hmax =>
          rw [if_neg hv, if_neg hmax] at h
          split
          next => rfl
          next hc =>
            rw [hc] at h
            cases h
  | touch id u =>
    simp only [answer] at h ⊢
    cases hf : m.find? id with
    | none => rfl
    | some r =>
      rw [hf] at h
      cases h
  | delete id =>
    simp only [answer] at h ⊢
    cases hf : m.find? id with
    | none => rfl
    | some r =>
      simp only [hf] at h ⊢
      split
      next hl =>
        rw [if_pos hl] at h
        split
        next => rfl
        next hmax =>
          rw [if_neg hmax] at h
          cases h
      next => rfl

lemma answer_of_idle (h : op.Idle (m.answer s op).1) : (m.answer s op).2 = m := by
  rcases h with hlooks | ⟨e, herror⟩
  · cases op with
    | findByAddress _ | findByName _ | get _ | list => rfl
    | _ => exact hlooks.elim
  · exact answer_of_error herror

/-- A call is held off or answered. -/
lemma step_cases (s : Stamp) (op : Operation) (m : Memory) :
    (∃ n ≤ m.failures, (m.step s op).2 = { m with failures := n }) ∨
      m.step s op = m.answer s op := by
  unfold step
  split
  next => exact .inl ⟨m.failures, Nat.le_refl _, rfl⟩
  next =>
    cases hn : m.failures with
    | succ n => exact .inl ⟨n, Nat.le_succ n, rfl⟩
    | zero => exact .inr rfl

lemma step_of_idle (h : op.Idle (m.step s op).1) :
    ∃ n ≤ m.failures, (m.step s op).2 = { m with failures := n } := by
  rcases m.step_cases s op with hheld | hanswered
  · exact hheld
  · rw [hanswered] at h ⊢
    exact ⟨m.failures, Nat.le_refl _, answer_of_idle h⟩

end Memory

/-! ### Stores of either kind -/

lemma Operation.Idle.hasMade {a : op.Answer} (h : op.Idle a) : Repository.hasMade op a = false := by
  rcases h with hlooks | ⟨e, rfl⟩
  · cases op with
    | create n => exact hlooks.elim
    | _ => rfl
  · cases op <;> rfl

namespace Repository

/-- How many calls the store still is to fail. -/
def pending (r : Repository) : Nat :=
  match r.backing with
  | .memory m => m.failures
  | .table .. => 0

/-- Nothing has become of a store but that it may have failed calls it was told to fail. -/
def Remains (r r' : Repository) : Prop := ∃ n ≤ r.pending, r' = r.failNext n

variable {r r' r'' : Repository} {now : Time.Instant}

lemma Remains.refl (r : Repository) : r.Remains r := by
  obtain ⟨m | ⟨t, inFile⟩, made⟩ := r
  · exact ⟨m.failures, Nat.le_refl _, rfl⟩
  · exact ⟨0, Nat.le_refl _, rfl⟩

lemma pending_failNext_le {n : Nat} (h : n ≤ r.pending) : (r.failNext n).pending ≤ n := by
  obtain ⟨m | ⟨t, inFile⟩, made⟩ := r
  · exact Nat.le_refl n
  · exact Nat.zero_le n

@[simp] lemma failNext_failNext (r : Repository) (n k : Nat) :
    (r.failNext n).failNext k = r.failNext k := by
  obtain ⟨m | ⟨t, inFile⟩, made⟩ := r <;> rfl

lemma Remains.trans (h : r.Remains r') (h' : r'.Remains r'') : r.Remains r'' := by
  obtain ⟨n, hn, rfl⟩ := h
  obtain ⟨k, hk, rfl⟩ := h'
  have hkn : k ≤ n := Nat.le_trans hk (pending_failNext_le hn)
  exact ⟨k, Nat.le_trans hkn hn, failNext_failNext r n k⟩

/-- Once a store fails no more calls, it is as it would be without those that it has failed. -/
lemma Remains.failNext (h : r.Remains r') : r'.failNext 0 = r.failNext 0 := by
  obtain ⟨n, -, rfl⟩ := h
  exact failNext_failNext r n 0

/-- **A call that only looks or fails leaves a store as it is.** -/
theorem step_of_idle (h : op.Idle (r.step now op).1) : r.Remains (r.step now op).2 := by
  rw [step_eq] at h ⊢
  rw [if_neg (Bool.eq_false_iff.mp h.hasMade)]
  obtain ⟨m | ⟨t, inFile⟩, made⟩ := r
  · obtain ⟨n, hle, hn⟩ := Memory.step_of_idle h
    simp only [Backing.step, hn]
    exact ⟨n, hle, rfl⟩
  · simp only [Backing.step, Sql.step_of_idle h]
    exact .refl _

end Repository

end NodeWatch.Store
