import NodeWatch.Proofs.Store.Ledger

/-!
The table as a list of records: what statements find in it and what they make of it.
-/

namespace NodeWatch.Store.Sql

namespace Table

/-- A table in working order that consists of the rows of the records. -/
structure Keeps (t : Table) (os : List Record) : Prop where
  there : t.exists_ = true
  insertable : t.insertsBlocked = false
  changeable : t.updatesBlocked = false
  rows : t.rows = os.map Row.ofRecord

variable {t : Table} {os : List Record} {o n : Record}

/-! ### Looking up -/

lemma find?_rows (h : t.Keeps os) {k : Key} {p : Record → Bool}
    (hp : ∀ o, k.admits (Row.ofRecord o) = p o) :
    t.rows.find? k.admits = (os.find? p).map Row.ofRecord := by
  have hcomp : k.admits ∘ Row.ofRecord = p := funext hp
  rw [h.rows, List.find?_map, hcomp]

lemma admits_id (id : String) (o : Record) :
    (Key.id id).admits (Row.ofRecord o) = decide (o.id = id) := by
  simp [Key.admits, Row.ofRecord]

lemma admits_liveAddress (a : Net.Address) (o : Record) :
    (Key.liveAddress a.toString).admits (Row.ofRecord o) =
      (o.isLive && decide (o.address = a)) := by
  have ha : o.address.toString = a.toString ↔ o.address = a :=
    ⟨Net.Address.toString_injective, congrArg _⟩
  simp only [Key.admits, Row.isLive_ofRecord, Row.ofRecord, Cell.text.injEq, ha]
  rw [Bool.and_comm]

/-- A record that is looked up is read. -/
lemma run_selectRecord (h : t.Keeps os) (hr : ∀ o ∈ os, o.Readable) {k : Key}
    {p : Record → Bool} (hp : ∀ o, k.admits (Row.ofRecord o) = p o) :
    (selectRecord k).run exec t = (.ok ((os.find? p).map Record.asRead), t) := by
  have hsel : exec (.selectOne k) t = (.ok ((os.find? p).map Row.ofRecord), t) := by
    simp [exec, h.there, find?_rows h hp]
  unfold selectRecord
  refine (Program.run_call_bind exec _ _ t).trans ?_
  rw [hsel]
  cases hf : os.find? p with
  | none => rfl
  | some o =>
    have ho := Row.record_ofRecord (hr o (List.mem_of_find?_eq_some hf))
    simp only [Option.map_some, ho]
    rfl

/-! ### Clashes -/

/-- The column that is named when something is not unique. -/
def column : Unique → Column
  | .ip => .ip
  | .name => .name
  | .other _ => .id

/-- The table tells of a clash as its ledger does. -/
lemma clash?_ofRecord (hid : ∀ o ∈ os, o.id ≠ n.id) :
    clash? (os.map Row.ofRecord) (Row.ofRecord n) =
      (Medium.table.clash? os n).map column := by
  have hothers : os.filter (fun o => o.isLive && o.id ≠ n.id) = os.filter (·.isLive) :=
    List.filter_congr fun o ho => by simp [hid o ho]
  have hname : ∀ o, decide (Row.ofRecord o .name = Row.ofRecord n .name) =
      decide (o.name = n.name) := by
    simp [Row.ofRecord]
  have hip : ∀ o, decide (Row.ofRecord o .ip = Row.ofRecord n .ip) =
      decide (o.address = n.address) := by
    intro o
    have ha : o.address.toString = n.address.toString ↔ o.address = n.address :=
      ⟨Net.Address.toString_injective, congrArg _⟩
    simp [Row.ofRecord, ha]
  have hnew : (os.any fun o => decide (Row.ofRecord o .id = Row.ofRecord n .id)) = false :=
    List.any_eq_false.mpr fun o ho => by simpa [Row.ofRecord] using hid o ho
  simp only [clash?, Medium.clash?, hothers, List.any_map, List.any_filter, Function.comp_def,
    Row.isLive_ofRecord, hname, hip, hnew, Bool.and_false, Bool.false_eq_true, if_false]
  cases n.isLive with
  | false => rfl
  | true =>
    simp only [Bool.true_and, Bool.not_true, Bool.false_eq_true, if_false]
    split
    · rfl
    · split <;> rfl

/-! ### Statements that write -/

lemma nullColumn?_ofRecord (n : Record) : nullColumn? (Row.ofRecord n) = none := by
  simp [nullColumn?, Column.all, Column.isNullable, Row.ofRecord]

lemma Keeps.insert (h : t.Keeps os) (hid : ∀ o ∈ os, o.id ≠ n.id)
    (hfree : Medium.table.clash? os n = none) :
    ∃ t', exec (.insert (Row.ofRecord n)) t = (.ok (1 : Nat), t') ∧ t'.Keeps (os ++ [n]) := by
  refine ⟨{ t with rows := t.rows ++ [Row.ofRecord n] }, ?_, ?_⟩
  · simp only [exec, h.there, h.insertable, h.rows, clash?_ofRecord hid, hfree]
    rfl
  · exact ⟨h.there, h.insertable, h.changeable, by simp [h.rows]⟩

lemma Keeps.insert_of_clash (h : t.Keeps os) (hid : ∀ o ∈ os, o.id ≠ n.id) {u : Unique}
    (hu : Medium.table.clash? os n = some u) :
    exec (.insert (Row.ofRecord n)) t = (.error (.notUnique (column u)), t) := by
  simp only [exec, h.there, h.insertable, h.rows, clash?_ofRecord hid, hu]
  rfl

lemma go_of_none (p : Row → Bool) (f : Row → Row) (done rest : List Row)
    (hp : ∀ r ∈ rest, p r = false) : change.go t p f done rest = .ok (0, done.reverse ++ rest) := by
  induction rest generalizing done with
  | nil => simp [change.go]
  | cons r rest ih =>
    rw [change.go, if_neg (by simp [hp r (by simp)]), ih _ fun x hx => hp x (by simp [hx])]
    simp

/-- A single row is changed if that breaks nothing. -/
lemma go_of_one (hu : t.updatesBlocked = false) (p : Row → Bool) (f : Row → Row)
    (done front back : List Row) (r : Row) (hfront : ∀ x ∈ front, p x = false)
    (hr : p r = true) (hback : ∀ x ∈ back, p x = false) (hn : nullColumn? (f r) = none)
    (hc : clash? (front.reverse ++ done ++ back) (f r) = none) :
    change.go t p f done (front ++ r :: back) =
      .ok (1, done.reverse ++ front ++ f r :: back) := by
  induction front generalizing done with
  | nil =>
    have hc' : clash? (done ++ back) (f r) = none := by simpa using hc
    rw [List.nil_append, change.go, if_pos hr, hu]
    simp only [Bool.false_eq_true, if_false, hn, hc', go_of_none p f _ back hback]
    simp [Except.map]
  | cons x front ih =>
    rw [List.cons_append, change.go, if_neg (by simp [hfront x (by simp)]),
      ih _ (fun y hy => hfront y (by simp [hy])) (by simpa using hc)]
    simp

/-- Nothing is changed if the row would break something. -/
lemma go_of_clash (hu : t.updatesBlocked = false) (p : Row → Bool) (f : Row → Row)
    (done front back : List Row) (r : Row) (hfront : ∀ x ∈ front, p x = false)
    (hr : p r = true) (hn : nullColumn? (f r) = none) {c : Column}
    (hc : clash? (front.reverse ++ done ++ back) (f r) = some c) :
    change.go t p f done (front ++ r :: back) = .error (.notUnique c) := by
  induction front generalizing done with
  | nil =>
    have hc' : clash? (done ++ back) (f r) = some c := by simpa using hc
    rw [List.nil_append, change.go, if_pos hr, hu]
    simp only [Bool.false_eq_true, if_false, hn, hc']
  | cons x front ih =>
    rw [List.cons_append, change.go, if_neg (by simp [hfront x (by simp)]),
      ih _ (fun y hy => hfront y (by simp [hy])) (by simpa using hc)]

lemma update_of_none (h : t.Keeps os) {p : Row → Bool} (f : Row → Row)
    (hp : ∀ o ∈ os, p (Row.ofRecord o) = false) : t.update p f = (.ok 0, t) := by
  have hno : ∀ r ∈ t.rows, p r = false := by
    rw [h.rows]
    exact List.forall_mem_map.mpr hp
  rw [Table.update, change, go_of_none p f [] t.rows hno]
  rfl

/-- The row of one record is to become that of another with the same identity: it does so unless
this breaks something among the others. -/
lemma Keeps.rewrite (h : t.Keeps os) (ho : Orderly os) (hm : o ∈ os) (hid : n.id = o.id)
    {p : Row → Bool} {f : Row → Row} (hp : ∀ x ∈ os, p (Row.ofRecord x) = decide (x.id = o.id))
    (hf : f (Row.ofRecord o) = Row.ofRecord n) :
    (∀ u, Medium.table.clash? os n = some u →
      t.update p f = (.error (.notUnique (column u)), t)) ∧
    (Medium.table.clash? os n = none →
      ∃ t', t.update p f = (.ok 1, t') ∧ t'.Keeps (amend o.id (fun _ => n) os)) := by
  obtain ⟨front, back, rfl⟩ := List.append_of_mem hm
  have hother := ho.id_ne_of_append
  have hnot : ∀ l : List Record, (∀ x ∈ l, x ∈ front ++ back) →
      ∀ r ∈ l.map Row.ofRecord, p r = false := by
    intro l hl r hr
    obtain ⟨x, hx, rfl⟩ := List.mem_map.mp hr
    rw [hp x (by have := hl x hx; simp at this ⊢; tauto)]
    exact decide_eq_false (hother x (hl x hx))
  have hfront := hnot front fun x hx => by simp [hx]
  have hback := hnot back fun x hx => by simp [hx]
  have hpo : p (Row.ofRecord o) = true := by simp [hp o hm]
  have hnull : nullColumn? (f (Row.ofRecord o)) = none := by rw [hf, nullColumn?_ofRecord]
  have hclash : clash? ((front.map Row.ofRecord).reverse ++ [] ++ back.map Row.ofRecord)
      (f (Row.ofRecord o)) = (Medium.table.clash? (front ++ o :: back) n).map column := by
    have hmap : (front.map Row.ofRecord).reverse ++ [] ++ back.map Row.ofRecord =
        (front.reverse ++ back).map Row.ofRecord := by simp
    have hsame : Medium.table.clash? (front.reverse ++ back) n =
        Medium.table.clash? (front ++ o :: back) n := by
      refine Medium.clash?_table_congr fun s _ hs => ?_
      have hso : s ≠ o := fun he => hs (by rw [he, hid])
      simp [hso]
    rw [hmap, hf, clash?_ofRecord, hsame]
    intro x hx
    rw [hid]
    exact hother x (by simpa using hx)
  refine ⟨fun u hu => ?_, fun hnone => ?_⟩
  · rw [hu] at hclash
    have hgo := go_of_clash h.changeable p f [] (front.map Row.ofRecord) (back.map Row.ofRecord)
      (Row.ofRecord o) hfront hpo hnull hclash
    rw [Table.update, change, h.rows, List.map_append, List.map_cons, hgo]
  · rw [hnone] at hclash
    have hgo := go_of_one h.changeable p f [] (front.map Row.ofRecord) (back.map Row.ofRecord)
      (Row.ofRecord o) hfront hpo hback hnull hclash
    refine ⟨{ t with rows := (front ++ n :: back).map Row.ofRecord }, ?_, ?_⟩
    · rw [Table.update, change, h.rows, List.map_append, List.map_cons, hgo, hf]
      simp
    · exact ⟨h.there, h.insertable, h.changeable, by rw [amend_append_cons hother]⟩

/-- The record of one identity is changed, and no key is. -/
lemma Keeps.update (h : t.Keeps os) (ho : Orderly os) (hm : o ∈ os) {g : Record → Record}
    (hg : KeepsKey g) {p : Row → Bool} {f : Row → Row}
    (hp : ∀ x, p (Row.ofRecord x) = decide (x.id = o.id))
    (hf : f (Row.ofRecord o) = Row.ofRecord (g o)) :
    ∃ t', t.update p f = (.ok 1, t') ∧ t'.Keeps (amend o.id g os) := by
  have hone : amend o.id g os = amend o.id (fun _ => g o) os :=
    amend_congr fun x hx hid => by rw [ho.eq_of_id hx hm hid]
  rw [hone]
  exact (h.rewrite ho hm (hg.id_eq o) (fun x _ => hp x) hf).2
    (Medium.clash?_table_of_key ho hm (hg o))

end Table

end NodeWatch.Store.Sql
