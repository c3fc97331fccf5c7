import NodeWatch.Proofs.Store.Backing

/-!
Addresses and names that nobody has, in any store that serves.

Nothing is asked of what is written in the store: a table may have rows that no record was written
in, and records in memory may agree in what must differ.
-/

namespace NodeWatch.Store

namespace Repository

/-- Calls are answered and rows can be added. -/
def Serves (r : Repository) : Prop :=
  match r.backing with
  | .memory m => m.offline = false ∧ m.failures = 0
  | .table t _ => t.exists_ = true ∧ t.insertsBlocked = false

/-- Nothing has the identity that comes next. -/
def Fresh (r : Repository) : Prop :=
  match r.backing with
  | .memory m => ∀ x ∈ m.records, x.id ≠ identity (r.made + 1)
  | .table t _ => ∀ row ∈ t.rows, row .id ≠ .text (identity (r.made + 1))

/-- A live record has the address. -/
def HasAddress (r : Repository) (a : Net.Address) : Prop :=
  match r.backing with
  | .memory m => ∃ x ∈ m.records, x.isLive = true ∧ x.address = a
  | .table t _ => ∃ row ∈ t.rows, row.isLive = true ∧ row .ip = .text a.toString

/-- A live record has the name. -/
def HasName (r : Repository) (name : String) : Prop :=
  match r.backing with
  | .memory m => ∃ x ∈ m.records, x.isLive = true ∧ x.name = name
  | .table t _ => ∃ row ∈ t.rows, row.isLive = true ∧ row .name = .text name

/-- The store with one more record. -/
def add (x : Record) (r : Repository) : Repository where
  backing := match r.backing with
    | .memory m => .memory { m with records := m.records ++ [x], writes := m.writes + 1 }
    | .table t inFile => .table { t with rows := t.rows ++ [Sql.Row.ofRecord x] } inFile
  made := r.made + 1

end Repository

/-! ### In memory -/

namespace Memory

variable {m : Memory} {k : Hashing} {rs : List Record} {s : Stamp} {n : NewRecord} {a : Net.Address}
  (h : m.Keeps k rs)
include h

lemma Keeps.step_findByAddress_of_not (ha : ¬ ∃ x ∈ rs, x.isLive = true ∧ x.address = a) :
    m.step s (.findByAddress a) = (.ok none, m) := by
  have hnone : m.live.find? (·.address = a) = none := by
    rw [h.find?_live, liveAt]
    exact List.find?_eq_none.mpr fun x hx hxa => ha ⟨x, hx, by simpa using hxa⟩
  simp only [h.step, Memory.answer, hnone]

variable (hid : ∀ x ∈ rs, x.id ≠ s.id) (ha : ¬ ∃ x ∈ rs, x.isLive = true ∧ x.address = n.address)
include hid ha

lemma Keeps.step_create_named (hn : ∃ x ∈ rs, x.isLive = true ∧ x.name = n.name) :
    m.step s (.create n) = (.error (.duplicate .name n.name), m) := by
  have hclash := Medium.clash?_of_named (m := .memory k) (r := n.toRecord s) rfl hid ha hn
  have hc : m.clash? (n.toRecord s) = some (.duplicate .name n.name) := by
    rw [h.clash?_eq, hclash]
    rfl
  rw [h.step, answer_create_clash hc]

lemma Keeps.step_create_free (hn : ¬ ∃ x ∈ rs, x.isLive = true ∧ x.name = n.name) :
    m.step s (.create n) = (.ok (n.toRecord s),
      { m with records := m.records ++ [n.toRecord s], writes := m.writes + 1 }) := by
  have hclash : (Medium.memory k).clash? rs (n.toRecord s) = none :=
    Medium.clash?_eq_none fun x hx hl _ hsame =>
      hsame.elim (fun hxa => ha ⟨x, hx, hl, hxa⟩) fun hxn => hn ⟨x, hx, hl, hxn⟩
  have hc : m.clash? (n.toRecord s) = none := by
    rw [h.clash?_eq, hclash]
    rfl
  have hput : putInto (n.toRecord s) m.records = m.records ++ [n.toRecord s] :=
    putInto_of_new (h.records ▸ hid)
  rw [h.step, answer_create_free hc]
  simp only [Memory.written, Memory.put, hput]

end Memory

/-! ### Tables -/

namespace Sql

variable {t : Table} {s : Stamp} {n : NewRecord} {a : Net.Address}

lemma step_findByAddress_of_not (hthere : t.exists_ = true)
    (ha : ¬ ∃ row ∈ t.rows, row.isLive = true ∧ row .ip = .text a.toString) :
    step s (.findByAddress a) t = (.ok none, t) := by
  have hnone : t.rows.find? (Key.liveAddress a.toString).admits = none :=
    List.find?_eq_none.mpr fun row hrow h => ha ⟨row, hrow, by
      simpa [Key.admits, and_comm] using h⟩
  have hselect : Table.exec (.selectOne (.liveAddress a.toString)) t = (.ok none, t) := by
    simp only [Table.exec, hthere, hnone, if_true]
  refine (Program.run_call_bind Table.exec _ _ t).trans ?_
  rw [hselect]
  rfl

variable (hthere : t.exists_ = true) (hfree : t.insertsBlocked = false)
include hthere hfree

lemma step_create_named (hn : ∃ row ∈ t.rows, row.isLive = true ∧ row .name = .text n.name) :
    step s (.create n) t = (.error (.duplicate .name n.name), t) := by
  obtain ⟨row, hrow, hl, hname⟩ := hn
  have htaken :
      (t.rows.any fun o => o.isLive && o .name = Row.ofRecord (n.toRecord s) .name) = true :=
    List.any_eq_true.mpr ⟨row, hrow, by simp [hl, hname, Row.ofRecord, NewRecord.toRecord]⟩
  have hc : Table.clash? t.rows (Row.ofRecord (n.toRecord s)) = some .name := by
    simp only [Table.clash?, Row.isLive_ofRecord, htaken]
    rfl
  have hinsert : Table.exec (.insert (Row.ofRecord (n.toRecord s))) t =
      (.error (.notUnique .name), t) := by
    simp only [Table.exec, hthere, hfree, hc]
    rfl
  rw [Table.step_create hinsert]
  rfl

lemma step_create_free (hid : ∀ row ∈ t.rows, row .id ≠ .text s.id)
    (ha : ¬ ∃ row ∈ t.rows, row.isLive = true ∧ row .ip = .text n.address.toString)
    (hn : ¬ ∃ row ∈ t.rows, row.isLive = true ∧ row .name = .text n.name) :
    step s (.create n) t = (.ok (n.toRecord s),
      { t with rows := t.rows ++ [Row.ofRecord (n.toRecord s)] }) := by
  have hname : (t.rows.any fun o => o.isLive && o .name = Row.ofRecord (n.toRecord s) .name) =
      false := List.any_eq_false.mpr fun row hrow h => by
    rw [Bool.and_eq_true, decide_eq_true_eq] at h
    exact hn ⟨row, hrow, h⟩
  have hip : (t.rows.any fun o => o.isLive && o .ip = Row.ofRecord (n.toRecord s) .ip) = false :=
    List.any_eq_false.mpr fun row hrow h => by
      rw [Bool.and_eq_true, decide_eq_true_eq] at h
      exact ha ⟨row, hrow, h⟩
  have hsame : (t.rows.any fun o => decide (o .id = Row.ofRecord (n.toRecord s) .id)) = false :=
    List.any_eq_false.mpr fun row hrow h => hid row hrow (of_decide_eq_true h)
  have hc : Table.clash? t.rows (Row.ofRecord (n.toRecord s)) = none := by
    simp only [Table.clash?, hname, hip, hsame, Bool.and_false, Bool.false_eq_true, if_false]
  have hinsert : Table.exec (.insert (Row.ofRecord (n.toRecord s))) t =
      (.ok (1 : Nat), { t with rows := t.rows ++ [Row.ofRecord (n.toRecord s)] }) := by
    simp only [Table.exec, hthere, hfree, hc]
    rfl
  rw [Table.step_create hinsert]
  rfl

end Sql

/-! ### Stores of either kind -/

namespace Repository

variable {r : Repository} {now : Time.Instant} {a : Net.Address} {n : NewRecord}

/-- What is created next. -/
def next (now : Time.Instant) (n : NewRecord) (r : Repository) : Record :=
  n.toRecord ⟨identity (r.made + 1), now⟩

variable (hs : r.Serves)
include hs

lemma Serves.step_findByAddress_of_not (ha : ¬ r.HasAddress a) :
    r.step now (.findByAddress a) = (.ok none, r) := by
  rw [step_eq]
  obtain ⟨m | ⟨t, inFile⟩, made⟩ := r
  · have hk : m.Keeps m.hashing m.records := ⟨hs.1, hs.2, rfl, rfl⟩
    simp only [Backing.step, hk.step_findByAddress_of_not ha]
    rfl
  · simp only [Backing.step, Sql.step_findByAddress_of_not hs.1 ha]
    rfl

variable (hf : r.Fresh) (ha : ¬ r.HasAddress n.address)
include hf ha

lemma Serves.step_create_named (hn : r.HasName n.name) :
    r.step now (.create n) = (.error (.duplicate .name n.name), r) := by
  rw [step_eq]
  obtain ⟨m | ⟨t, inFile⟩, made⟩ := r
  · have hk : m.Keeps m.hashing m.records := ⟨hs.1, hs.2, rfl, rfl⟩
    simp only [Backing.step, hk.step_create_named (s := ⟨identity (made + 1), now⟩) hf ha hn]
    rfl
  · simp only [Backing.step, Sql.step_create_named hs.1 hs.2 hn]
    rfl

lemma Serves.step_create_free (hn : ¬ r.HasName n.name) :
    r.step now (.create n) = (.ok (r.next now n), r.add (r.next now n)) := by
  rw [step_eq]
  obtain ⟨m | ⟨t, inFile⟩, made⟩ := r
  · have hk : m.Keeps m.hashing m.records := ⟨hs.1, hs.2, rfl, rfl⟩
    simp only [Backing.step, hk.step_create_free (s := ⟨identity (made + 1), now⟩) hf ha hn]
    rfl
  · simp only [Backing.step,
      Sql.step_create_free (s := ⟨identity (made + 1), now⟩) hs.1 hs.2 hf ha hn]
    rfl

end Repository

end NodeWatch.Store
