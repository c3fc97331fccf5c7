import NodeWatch.Proofs.Store.Backing

/-!
What holds of the records of a store from its beginning on, whichever calls are made and however
often the store does not serve.
-/

namespace NodeWatch.Store

/-! ### Tables with triggers -/

namespace Sql

/-- A script that writes once at most and fails if it cannot write. -/
inductive WritesLast {β : Type} : Script (Except Error β) → Prop where
  | done (a : Except Error β) : WritesLast (.done a)
  | looks (k : Key) (next : (Statement.selectOne k).Answer → Script (Except Error β))
    (later : ∀ a, WritesLast (next a)) : WritesLast (.ask (.selectOne k) next)
  | lists (next : Statement.selectLive.Answer → Script (Except Error β))
    (later : ∀ a, WritesLast (next a)) : WritesLast (.ask .selectLive next)
  | writes (st : Statement) (f : Fault → Error) (g : st.Result → β) :
    WritesLast (.ask st fun a => .done ((lift f a).map g))

lemma WritesLast.select {β : Type} {k : Key}
    {next : Except Error (Option Record) → Script (Except Error β)}
    (later : ∀ a, WritesLast (next a)) : WritesLast (selectRecord k >>= next) :=
  .looks k _ fun _ => later _

/-- So do all calls. -/
lemma script_writesLast (s : Stamp) (op : Operation) : WritesLast (script s op) := by
  cases op with
  | findByAddress a => exact .looks _ _ fun _ => .done _
  | findByName n => exact .looks _ _ fun _ => .done _
  | get id => exact .looks _ _ fun _ => .done _
  | list => exact .lists _ fun _ => .done _
  | create n => exact .writes _ _ _
  | delete id => exact .writes _ _ _
  | update id v p =>
    refine .select fun a => ?_
    rcases a with e | _ | r
    · exact .done _
    · exact .done _
    · simp only
      split
      · exact .done _
      · split
        · exact .done _
        · exact .writes _ _ _
  | touch id u =>
    refine .select fun a => ?_
    rcases a with e | _ | r
    · exact .done _
    · exact .done _
    · simp only
      split
      · exact .writes _ _ _
      · exact .done _

namespace Table

/-- The table with its triggers on or off. -/
def guarded (i u : Bool) (t : Table) : Table :=
  { t with insertsBlocked := i, updatesBlocked := u }

/-- The table with other rows. -/
def withRows (rows : List Row) (t : Table) : Table := { t with rows }

variable {t : Table} {i u : Bool}

@[simp] lemma guarded_rows : (t.guarded i u).rows = t.rows := rfl

/-- A statement is held off, or does what it does without triggers. -/
def Obeys (i u : Bool) (t : Table) (st : Statement) : Prop :=
  exec st (t.guarded i u) = (.error .blocked, t.guarded i u) ∨
    ∃ a rows, exec st t = (a, t.withRows rows) ∧
      exec st (t.guarded i u) = (a, (t.guarded i u).withRows rows)

lemma go_congr {t' : Table} (h : t'.updatesBlocked = t.updatesBlocked) (p : Row → Bool)
    (f : Row → Row) (done rest : List Row) :
    change.go t' p f done rest = change.go t p f done rest := by
  induction rest generalizing done with
  | nil => rfl
  | cons r rest ih => simp only [change.go, h, ih]

lemma go_guarded (hu : t.updatesBlocked = false) (p : Row → Bool) (f : Row → Row)
    (done rest : List Row) : change.go (t.guarded i u) p f done rest = .error .blocked ∨
      change.go (t.guarded i u) p f done rest = change.go t p f done rest := by
  cases u with
  | false => exact .inr (go_congr hu.symm p f done rest)
  | true =>
    induction rest generalizing done with
    | nil => exact .inr rfl
    | cons r rest ih =>
      by_cases hp : p r = true
      · left
        simp [change.go, hp, guarded]
      · simp only [change.go, hp]
        exact ih _

lemma update_guarded (hu : t.updatesBlocked = false) (p : Row → Bool) (f : Row → Row) :
    (t.guarded i u).update p f = (.error .blocked, t.guarded i u) ∨
      ∃ a rows, t.update p f = (a, t.withRows rows) ∧
        (t.guarded i u).update p f = (a, (t.guarded i u).withRows rows) := by
  rcases go_guarded (i := i) (u := u) hu p f [] t.rows with hgo | hgo
  · left
    simp only [Table.update, change, guarded_rows, hgo]
  · right
    simp only [Table.update, change, guarded_rows, hgo]
    cases change.go t p f [] t.rows with
    | error e => exact ⟨_, t.rows, rfl, rfl⟩
    | ok x => exact ⟨_, x.2, rfl, rfl⟩

/-- A table without triggers. -/
structure Free (t : Table) : Prop where
  there : t.exists_ = true
  insertable : t.insertsBlocked = false
  changeable : t.updatesBlocked = false

lemma Free.exec_guarded (h : t.Free) (st : Statement) : t.Obeys i u st := by
  have hthere : (t.guarded i u).exists_ = true := h.there
  unfold Obeys
  cases st with
  | selectOne k | selectLive =>
    simp only [exec, h.there, hthere, if_true, guarded_rows]
    exact .inr ⟨_, t.rows, rfl, rfl⟩
  | insert r =>
    obtain ⟨rows, there, ins, upd⟩ := t
    obtain ⟨rfl, rfl, rfl⟩ := h
    cases i with
    | true => exact .inl rfl
    | false =>
      right
      cases hc : clash? rows r with
      | some c => exact ⟨.error (.notUnique c), rows, by simp [exec, hc, withRows],
          by simp [exec, guarded, hc, withRows]⟩
      | none => exact ⟨.ok (1 : Nat), rows ++ [r], by simp [exec, hc, withRows],
          by simp [exec, guarded, hc, withRows]⟩
  | replace _ | setLastSeen _ _ | markDeleted _ _ | setColumn _ _ _ =>
    simp only [exec, h.there, hthere]
    exact update_guarded h.changeable _ _

/-- A script that writes last fails, or does what it does without triggers. -/
lemma Free.run_guarded {β : Type} {p : Script (Except Error β)} (hp : WritesLast p) (h : t.Free) :
    (∃ e, p.run exec (t.guarded i u) = (.error e, t.guarded i u)) ∨
      ∃ a rows, p.run exec t = (a, t.withRows rows) ∧
        p.run exec (t.guarded i u) = (a, (t.guarded i u).withRows rows) := by
  have hthere : (t.guarded i u).exists_ = true := h.there
  induction hp with
  | done a => exact .inr ⟨a, t.rows, rfl, rfl⟩
  | looks k next later ih =>
    rw [Program.run_ask, Program.run_ask]
    simp only [exec, h.there, hthere, if_true, guarded_rows]
    exact ih _
  | lists next later ih =>
    rw [Program.run_ask, Program.run_ask]
    simp only [exec, h.there, hthere, if_true, guarded_rows]
    exact ih _
  | writes st f g =>
    rw [Program.run_ask, Program.run_ask]
    rcases h.exec_guarded (i := i) (u := u) st with hst | ⟨a, rows, ht, hst⟩
    · rw [hst]
      exact .inl ⟨_, rfl⟩
    · rw [ht, hst]
      exact .inr ⟨_, rows, rfl, rfl⟩

end Table

end Sql

/-! ### A store that does not serve -/

/-- What may keep a store from serving: one in memory has been told to fail, and what is written to
a table is held off by triggers. -/
structure Trouble where
  offline : Bool := false
  failures : Nat := 0
  insertsBlocked : Bool := false
  updatesBlocked : Bool := false

/-- The store in trouble. -/
def Backing.under (d : Trouble) : Backing → Backing
  | .memory m => .memory { m with offline := d.offline, failures := d.failures }
  | .table t inFile =>
    .table (t.guarded d.insertsBlocked d.updatesBlocked) inFile

/-- A store, maybe in trouble, and what is written in it. -/
def Backing.Stores (b : Backing) (m : Medium) (rs : List Record) : Prop := (b.under {}).Has m rs

@[simp] lemma Backing.under_under (b : Backing) (d d' : Trouble) :
    (b.under d).under d' = b.under d' := by
  cases b <;> rfl

lemma Backing.Has.under_none {b : Backing} {m : Medium} {rs : List Record} (h : b.Has m rs) :
    b.under {} = b := by
  cases h with
  | @memory m k _ keeps =>
    obtain ⟨records, offline, failures, writes⟩ := m
    obtain ⟨rfl, rfl, -⟩ := keeps
    rfl
  | @table t _ _ keeps =>
    obtain ⟨rows, there, insertsBlocked, updatesBlocked⟩ := t
    obtain ⟨-, rfl, rfl, -⟩ := keeps
    rfl

lemma Backing.Has.stores {b : Backing} {m : Medium} {rs : List Record} (h : b.Has m rs) :
    b.Stores m rs := by
  rw [Stores, h.under_none]
  exact h

/-! ### One call -/

/-- A call made whatever the trouble, with what is taken from outside for it. -/
structure Attempt extends Request where
  trouble : Trouble := {}

/-- The answer to a call, and the store after it. -/
def Backing.attempt (c : Attempt) (b : Backing) : c.op.Answer × Backing :=
  (b.under c.trouble).step c.stamp c.op

variable {b : Backing} {m : Medium} {rs : List Record} {s : Stamp} {op : Operation} {c : Attempt}

/-- A call that fails for trouble leaves the records alone. -/
lemma makes_error (e : Error) : m.Makes s rs op (.error e) rs :=
  .nothing (op.not_changes_error e)

lemma Backing.step_table {t t' : Sql.Table} {inFile : Bool} {a : op.Answer}
    (hrun : (Sql.script s op).run Sql.Table.exec t = (a, t')) :
    (Backing.table t inFile).step s op = (a, .table t' inFile) := by
  change ((Program.run _ _ _).1, Backing.table (Program.run _ _ _).2 inFile) = _
  rw [hrun]

lemma Backing.Has.step_under (h : b.Has m rs) (ho : Orderly rs) (hadm : m.Admits s rs op)
    (d : Trouble) : ∃ rs', m.Makes s rs op ((b.under d).step s op).1 rs' ∧
      ((b.under d).step s op).2.Stores m rs' := by
  obtain ⟨ha, hk⟩ := h.step ho hadm
  have hmakes := m.makes_answer s op rs
  rw [← ha] at hmakes
  cases h with
  | @memory m k _ keeps =>
    have hsame : Stores (.memory m) (.memory k) rs := (Has.memory keeps).stores
    by_cases hoff : d.offline = true
    · refine ⟨rs, ?_, ?_⟩
      · simp only [under, Backing.step, Memory.step, hoff, if_true]
        exact makes_error _
      · simp only [under, Backing.step, Memory.step, hoff, if_true]
        exact hsame
    · cases hn : d.failures with
      | zero =>
        have hcalm : (Backing.memory m).under d = .memory m := by
          rw [← (Has.memory keeps).under_none]
          simp only [under, hn, Bool.eq_false_iff.mpr hoff]
        rw [hcalm]
        exact ⟨_, hmakes, hk.stores⟩
      | succ n =>
        refine ⟨rs, ?_, ?_⟩
        · simp only [under, Backing.step, Memory.step, hoff, hn]
          exact makes_error _
        · simp only [under, Backing.step, Memory.step, hoff, hn]
          exact hsame
  | @table t inFile _ keeps =>
    have hfree : t.Free := ⟨keeps.there, keeps.insertable, keeps.changeable⟩
    rcases hfree.run_guarded (i := d.insertsBlocked) (u := d.updatesBlocked)
      (Sql.script_writesLast s op) with ⟨e, hrun⟩ | ⟨a, rows, hcalm, hrun⟩
    · have hstep : ((Backing.table t inFile).under d).step s op =
          (.error e, (Backing.table t inFile).under d) := step_table hrun
      rw [hstep]
      refine ⟨rs, makes_error e, ?_⟩
      rw [Stores, under_under]
      exact (Has.table keeps).stores
    · have hstep : ((Backing.table t inFile).under d).step s op =
          (a, .table ((t.guarded d.insertsBlocked d.updatesBlocked).withRows rows) inFile) :=
        step_table hrun
      have hfreely : (Backing.table t inFile).step s op =
          (a, .table (t.withRows rows) inFile) := step_table hcalm
      rw [hfreely] at hmakes hk
      rw [hstep]
      exact ⟨_, hmakes, hk.stores⟩

/-- A call on a store in whatever trouble. -/
lemma Backing.Stores.attempt (h : b.Stores m rs) (ho : Orderly rs)
    (hadm : m.Admits c.stamp rs c.op) :
    ∃ rs', m.Makes c.stamp rs c.op (b.attempt c).1 rs' ∧ (b.attempt c).2.Stores m rs' := by
  have hstep := Has.step_under h ho hadm c.trouble
  rwa [under_under] at hstep

/-! ### Many calls -/

/-- How the records go on with a call: as it tells by its answer, and not otherwise. -/
structure Follows (a : op.Answer) (rs rs' : List Record) : Prop where
  kept : ∀ r ∈ rs, ∃ r' ∈ rs', r.Grows (op.Writes a r.id) r'
  comes : ∀ r' ∈ rs', (∃ r ∈ rs, r.Grows (op.Writes a r.id) r') ∨ op.Adds a r' ∧ r'.version = 1
  added : ∀ r', op.Adds a r' → r' ∈ rs'
  found : ∀ id, op.Writes a id → ∃ r ∈ rs, r.id = id
  unchanged : ¬ op.Changes a → rs' = rs

/-- The store after the calls. -/
def Backing.afterAll (b : Backing) (calls : List Attempt) : Backing :=
  calls.foldl (fun b c => (b.attempt c).2) b

/-- The records that are written in a store before the calls and after each of them. No two live
ones have the same name or address, and with each call they go on as its answer tells. -/
structure Chronicle (b : Backing) (m : Medium) (calls : List Attempt)
    (written : Nat → List Record) : Prop where
  stores : ∀ k ≤ calls.length, (b.afterAll (calls.take k)).Stores m (written k)
  orderly : ∀ k ≤ calls.length, Orderly (written k)
  follows : ∀ k c, calls[k]? = some c →
    Follows ((b.afterAll (calls.take k)).attempt c).1 (written k) (written (k + 1))

/-- The records of a store after `n` calls, which have used up some identities. -/
structure Backing.Keeps (b : Backing) (m : Medium) (n : Nat) (used : List String)
    (rs : List Record) : Prop where
  stores : b.Stores m rs
  orderly : Orderly rs
  known : ∀ r ∈ rs, r.id ∈ used
  young : ∀ r ∈ rs, r.version ≤ n

section

variable {n : Nat} {used : List String} (h : b.Keeps m n used rs)
  (hnew : ∀ id ∈ c.toRequest.creates?, id ∉ used) (hroom : m = .table → n + 1 < 2 ^ 63)
include h

lemma Backing.Keeps.small (hn : m = .table → n < 2 ^ 63) :
    m = .table → ∀ r ∈ rs, r.version < 2 ^ 63 :=
  fun hm r hr => Nat.lt_of_le_of_lt (h.young r hr) (hn hm)

include hnew hroom

lemma Backing.Keeps.admits : m.Admits c.stamp rs c.op := by
  obtain ⟨⟨s, op⟩, d⟩ := c
  cases op with
  | create w => exact fun r hr he => hnew s.id rfl (he ▸ h.known r hr)
  | delete id =>
    intro hm r hr _
    have := h.young r hr
    have := hroom hm
    omega
  | _ => exact trivial

/-- One more call. -/
lemma Backing.Keeps.makes :
    ∃ rs', m.Makes c.stamp rs c.op (b.attempt c).1 rs' ∧
      (b.attempt c).2.Keeps m (n + 1) (used ++ c.toRequest.creates?.toList) rs' := by
  have hsmall := h.small fun hm => Nat.lt_of_succ_lt (hroom hm)
  have hadm := h.admits hnew hroom
  obtain ⟨rs', hmakes, hstores⟩ := h.stores.attempt h.orderly hadm
  have hcomes := hmakes.comes h.orderly hadm hsmall
  refine ⟨rs', hmakes, hstores, hmakes.orderly h.orderly hadm, fun r' hr' => ?_, fun r' hr' => ?_⟩
  · rcases hcomes r' hr' with ⟨r, hr, hgrows⟩ | ⟨-, w, hw, rfl⟩
    · rw [hgrows.id]
      exact List.mem_append_left _ (h.known r hr)
    · refine List.mem_append_right _ ?_
      simp [Request.creates?, hw, NewRecord.toRecord]
  · rcases hcomes r' hr' with ⟨r, hr, hgrows⟩ | ⟨-, w, -, rfl⟩
    · have := h.young r hr
      have := hgrows.version_le
      omega
    · exact Nat.le_add_left 1 n

lemma Backing.Keeps.attempt :
    ∃ rs', (b.attempt c).2.Keeps m (n + 1) (used ++ c.toRequest.creates?.toList) rs' ∧
      Follows (b.attempt c).1 rs rs' := by
  have hsmall := h.small fun hm => Nat.lt_of_succ_lt (hroom hm)
  obtain ⟨rs', hmakes, hkeeps⟩ := h.makes hnew hroom
  refine ⟨rs', hkeeps, hmakes.kept h.orderly hsmall, fun r' hr' => ?_, fun _ => hmakes.added,
    fun _ => hmakes.found, hmakes.unchanged⟩
  rcases hmakes.comes h.orderly (h.admits hnew hroom) hsmall r' hr' with
    hgrown | ⟨hadds, w, -, rfl⟩
  · exact .inl hgrown
  · exact .inr ⟨hadds, rfl⟩

end

/-- The identities that calls use up. -/
def created (calls : List Attempt) : List String :=
  calls.filterMap fun c => c.toRequest.creates?

lemma created_cons (c : Attempt) (calls : List Attempt) :
    created (c :: calls) = c.toRequest.creates?.toList ++ created calls := by
  rw [created, List.filterMap_cons]
  cases c.toRequest.creates? <;> rfl

/-- Call by call, from any store on. -/
lemma Backing.Keeps.afterAll {n : Nat} {used : List String} (h : b.Keeps m n used rs)
    {calls : List Attempt} (fresh : (used ++ created calls).Nodup)
    (room : m = .table → n + calls.length < 2 ^ 63) :
    ∃ written, written 0 = rs ∧ Chronicle b m calls written := by
  induction calls generalizing b n used rs with
  | nil =>
    refine ⟨fun _ => rs, rfl, fun k _ => ?_, fun _ _ => h.orderly, by simp⟩
    rw [List.take_nil]
    exact h.stores
  | cons c calls ih =>
    rw [created_cons, ← List.append_assoc] at fresh
    have hnew : ∀ id ∈ c.toRequest.creates?, id ∉ used := fun id hid hmem =>
      (List.nodup_append.mp fresh.of_append_left).2.2 id hmem id (by simpa using hid) rfl
    rw [List.length_cons] at room
    obtain ⟨rs', hkeeps, hfollows⟩ := h.attempt hnew fun hm => by have := room hm; omega
    obtain ⟨written, hzero, hlater⟩ := ih hkeeps fresh fun hm => by have := room hm; omega
    refine ⟨fun k => k.casesOn rs written, rfl, fun k hk => ?_, fun k hk => ?_, fun k x hx => ?_⟩
    · cases k with
      | zero => exact h.stores
      | succ k => exact hlater.stores k (Nat.le_of_succ_le_succ hk)
    · cases k with
      | zero => exact h.orderly
      | succ k => exact hlater.orderly k (Nat.le_of_succ_le_succ hk)
    · cases k with
      | zero =>
        obtain rfl : c = x := by simpa using hx
        change Follows _ rs (written 0)
        rw [hzero]
        exact hfollows
      | succ k => exact hlater.follows k x (by simpa using hx)

/-- **What holds of the records from the beginning on**, in a store that starts empty, whichever
calls are made on it and whatever trouble it is in. -/
theorem records_over_history (h : b.Has m []) (calls : List Attempt)
    (fresh : (created calls).Nodup) (room : m = .table → calls.length < 2 ^ 63) :
    ∃ written, written 0 = [] ∧ Chronicle b m calls written := by
  have hstart : b.Keeps m 0 [] [] := ⟨h.stores, orderly_nil, by simp, by simp⟩
  exact hstart.afterAll fresh fun hm => by rw [Nat.zero_add]; exact room hm

/-- A node is put on record, updated in vain while nothing can be changed, updated, deleted and
then seen once more. -/
def life : List Attempt :=
  [{ stamp := ⟨"a", default⟩,
     op := .create { name := "pi", address := .v4 10 0 0 1, lastSeen := default } },
   { stamp := ⟨"", default⟩, op := .update "a" 1 { model := some "Pi5" },
     trouble := { updatesBlocked := true } },
   { stamp := ⟨"", default⟩, op := .update "a" 1 { model := some "Pi5" } },
   { stamp := ⟨"", default⟩, op := .delete "a" },
   { stamp := ⟨"", default⟩, op := .touch "a" default }]

theorem records_over_history_for_life :
    (Repository.inTable true).backing.Has .table [] ∧ (created life).Nodup ∧
      life.length < 2 ^ 63 ∧ ∃ written, written 0 = [] ∧
        Chronicle (Repository.inTable true).backing .table life written := by
  have hempty : (Repository.inTable true).backing.Has .table [] := .table ⟨rfl, rfl, rfl, rfl⟩
  have hfresh : (created life).Nodup := by decide
  have hroom : life.length < 2 ^ 63 := by decide
  exact ⟨hempty, hfresh, hroom, records_over_history hempty life hfresh fun _ => hroom⟩

end NodeWatch.Store
