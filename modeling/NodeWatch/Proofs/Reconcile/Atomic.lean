import NodeWatch.Proofs.Reconcile.Idempotent
import NodeWatch.Proofs.Store.Unchanged
import NodeWatch.Upkeep

/-!
A reconciliation on a store whose calls fail.

Wherever it writes, the write is its last call, and it succeeds with it. So whatever fails, there is
nothing half done.
-/

namespace NodeWatch.Store

/-- A program that is through, with success, as soon as it has written something. -/
inductive EndsOnWrite {ε α : Type} : Session (Except ε α) → Prop where
  | done (x : Except ε α) : EndsOnWrite (.done x)
  | looks {op : Operation} {next : op.Answer → Session (Except ε α)} (looks : op.Looks)
    (later : ∀ a, EndsOnWrite (next a)) : EndsOnWrite (.ask op next)
  | writes {op : Operation} {next : op.Answer → Session (Except ε α)}
    (ends : ∀ a, ∃ x, next (.ok a) = .done (.ok x)) (later : ∀ e, EndsOnWrite (next (.error e))) :
    EndsOnWrite (.ask op next)

namespace EndsOnWrite

section

variable {ε α σ : Type} {answer : (op : Operation) → σ → op.Answer × σ} {R : σ → σ → Prop}
  {p : Session (Except ε α)} {s : σ} (hp : EndsOnWrite p)
  (hidle : ∀ op s, op.Idle (answer op s).1 → R s (answer op s).2)
include hp hidle

/-- What idle calls do not change, only the last call changes. -/
lemma trail : ∀ x ∈ (p.trail answer s).dropLast, R x.before x.after := by
  induction hp generalizing s with
  | done x => exact fun x hx => nomatch hx
  | @looks op next looks later ih =>
    intro x hx
    rcases Program.mem_dropLast_trail_ask hx with rfl | hx
    · exact hidle op s (.inl looks)
    · exact ih _ x hx
  | @writes op next ends later ih =>
    intro x hx
    cases ha : (answer op s).1 with
    | error e =>
      rcases Program.mem_dropLast_trail_ask hx with rfl | hx
      · exact hidle op s (.inr ⟨e, ha⟩)
      · rw [ha] at hx
        exact ih e x hx
    | ok a =>
      -- After a write there is no other call, so that this one is the last.
      obtain ⟨y, hy⟩ := ends a
      rw [Program.trail_ask, ha, hy] at hx
      cases hx

/-- What has failed has changed nothing. -/
lemma run_of_error (hrefl : ∀ s, R s s) (htrans : ∀ {s s' s''}, R s s' → R s' s'' → R s s'')
    {e : ε} (h : (p.run answer s).1 = .error e) : R s (p.run answer s).2 := by
  induction hp generalizing s with
  | done x => exact hrefl s
  | @looks op next looks later ih =>
    rw [Program.run_ask] at h ⊢
    exact htrans (hidle op s (.inl looks)) (ih _ h)
  | @writes op next ends later ih =>
    rw [Program.run_ask] at h ⊢
    cases ha : (answer op s).1 with
    | error x =>
      rw [ha] at h
      exact htrans (hidle op s (.inr ⟨x, ha⟩)) (ih x h)
    | ok a =>
      obtain ⟨y, hy⟩ := ends a
      rw [ha, hy] at h
      cases h

end

end EndsOnWrite

/-- So it is with calls some of which fail of themselves. -/
lemma Course.step_of_idle {c : Course} {op : Operation} {x : Repository × Nat}
    (h : op.Idle (c.step Repository.step op x).1) :
    x.1.Remains (c.step Repository.step op x).2.1 := by
  obtain ⟨r, n⟩ := x
  rcases hcn : c n with ⟨now, _ | e⟩
  · have hstep : c.step Repository.step op (r, n) =
        ((r.step now op).1, (r.step now op).2, n + 1) := by
      simp only [Course.step, hcn]
    rw [hstep] at h ⊢
    exact Repository.step_of_idle h
  · simp only [Course.step, hcn]
    exact .refl r

end NodeWatch.Store

namespace NodeWatch.Reconcile

open Store

variable {e : Event}

/-! ### The parts end on their write -/

lemma endsOnWrite_closing {p : Session (Except Store.Error Outcome)} (hp : EndsOnWrite p) :
    EndsOnWrite (closing e p) := by
  induction hp with
  | done x => exact .done _
  | looks looks later ih => exact .looks looks ih
  | writes ends later ih =>
    refine .writes (fun a => ?_) ih
    obtain ⟨o, ho⟩ := ends a
    exact ⟨o, by rw [ho]; rfl⟩

lemma endsOnWrite_refresh (o : Observation) (left : Nat) (r : Record) :
    EndsOnWrite (refresh o left r) := by
  induction left generalizing r with
  | zero => exact .done _
  | succ left ih =>
    cases hp : (refreshPatch r o).isEmpty with
    | true =>
      rw [refresh_of_isEmpty hp]
      exact .writes (fun _ => ⟨_, rfl⟩) fun _ => .done _
    | false =>
      rw [refresh_of_changes hp]
      refine .writes (fun _ => ⟨_, rfl⟩) fun x => ?_
      cases x with
      | conflict id v w =>
        simp only
        split
        · exact .done _
        · refine .looks trivial fun b => ?_
          rcases b with _ | _ | r'
          · exact .done _
          · exact .done _
          · exact ih r'
      | _ => exact .done _

lemma endsOnWrite_create (names : List (List Char)) : EndsOnWrite (create e names) := by
  induction names with
  | nil => exact .done _
  | cons name names ih =>
    rw [create_cons]
    refine .writes (fun _ => ⟨_, rfl⟩) fun x => ?_
    rcases x with _ | _ | ⟨⟨_ | _ | _⟩, _⟩ | _ | _ | _ | _ | _
    case duplicate.ip =>
      refine .looks trivial fun b => ?_
      rcases b with _ | _ | r
      · exact .done _
      · exact .done _
      · exact endsOnWrite_closing (endsOnWrite_refresh _ _ r)
    case duplicate.name => exact ih
    all_goals exact .done _

lemma endsOnWrite_markUnknown (o : Observation) (left : Nat) :
    EndsOnWrite (markUnknown o left) := by
  induction left with
  | zero => exact .done _
  | succ left ih =>
    rw [markUnknown_succ]
    refine .looks trivial fun a => ?_
    rcases a with _ | _ | r
    · exact .done _
    · exact .done _
    · simp only
      split
      · exact .done _
      · refine .writes (fun _ => ⟨_, rfl⟩) fun x => ?_
        cases x with
        | conflict id v w =>
          simp only
          split
          · exact .done _
          · exact ih
        | _ => exact .done _

lemma endsOnWrite_reconcile (e : Event) (suffix : List Char) :
    EndsOnWrite (reconcile e suffix) := by
  by_cases hk : e.kind = .lost
  · rw [reconcile_lost hk]
    exact endsOnWrite_closing (endsOnWrite_markUnknown _ _)
  · rw [reconcile_seen hk]
    refine .looks trivial fun a => ?_
    rcases a with _ | _ | r
    · exact .done _
    · exact endsOnWrite_create _
    · exact endsOnWrite_closing (endsOnWrite_refresh _ _ r)

/-- An event is handled by being reconciled. -/
lemma run_handle (c : Course) (m : Metrics) (e : Event) (suffix : List Char) (r : Repository) :
    c.run Repository.step (handle m e suffix) r =
      ((reported (Upkeep.handle c suffix e r).1,
        m.reconciled (countedAs (Upkeep.handle c suffix e r).1)),
        (Upkeep.handle c suffix e r).2) := by
  have hbind : handle m e suffix = (reconcile e suffix).bind
      fun x => .done (reported x, m.reconciled (countedAs x)) := rfl
  rw [Course.run, hbind, Program.run_bind]
  rfl

/-- **A reconciliation is atomic, whichever of its calls fail.** Only its last call changes the
store. If it ends with an error there was no change, nothing is reported, and once no more calls
fail it goes as it would have gone without the attempt. -/
theorem reconcile_atomic (c : Course) (suffix : List Char) (e : Event) (r : Repository) :
    let y := Upkeep.handle c suffix e r
    (∀ x ∈ ((reconcile e suffix).trail (c.step Repository.step) (r, 0)).dropLast,
      x.before.1.Remains x.after.1) ∧
    ∀ x, y.1 = .error x → r.Remains y.2 ∧ reported y.1 = none ∧ countedAs y.1 = "error" ∧
      (∀ m, c.run Repository.step (handle m e suffix) r = ((none, m.reconciled "error"), y.2)) ∧
      ∀ c' suffix', Upkeep.handle c' suffix' e (y.2.failNext 0) =
        Upkeep.handle c' suffix' e (r.failNext 0) := by
  have hends := endsOnWrite_reconcile e suffix
  let R (x x' : Repository × Nat) : Prop := x.1.Remains x'.1
  have hidle : ∀ op x, op.Idle (c.step Repository.step op x).1 →
      R x (c.step Repository.step op x).2 := fun _ _ => Course.step_of_idle
  refine ⟨hends.trail hidle, fun x hx => ?_⟩
  have hstays : R (r, 0) ((reconcile e suffix).run (c.step Repository.step) (r, 0)).2 :=
    hends.run_of_error hidle (fun _ => .refl _) .trans hx
  refine ⟨hstays, by rw [hx]; rfl, by rw [hx]; rfl, fun m => ?_, fun c' suffix' => ?_⟩
  · rw [run_handle, hx]
    rfl
  · exact congrArg (Upkeep.handle c' suffix' e) hstays.failNext

def locked : Store.Error := .database ⟨5, "database is locked"⟩

/-- The second call fails. -/
def lockedOnce : Course := fun n => (default, if n = 1 then some locked else none)

theorem reconcile_atomic_for_arrival :
    let r := (Repository.inTable true).after known
    let y := Upkeep.handle lockedOnce [] arrival r
    y.1 = failed arrival (.error locked) ∧ y.2 = r ∧ reported y.1 = none ∧
      (Upkeep.handle alwaysNow [] arrival y.2).1 = .ok .updated := by
  intro r y
  have hy : y.1 = failed arrival (.error locked) := rfl
  obtain ⟨⟨n, -, hstays⟩, hnone, -, -, hlater⟩ := (reconcile_atomic lockedOnce [] arrival r).2 _ hy
  have hsame : y.2 = r := hstays
  refine ⟨hy, hsame, hnone, ?_⟩
  have hagain : Upkeep.handle alwaysNow [] arrival y.2 = Upkeep.handle alwaysNow [] arrival r :=
    hsame ▸ hlater alwaysNow []
  rw [hagain]
  rfl

end NodeWatch.Reconcile
