import NodeWatch.Proofs.Store.Sql.Session

/-!
What each statement of a call makes of a table in working order.

A statement that would break something fails and leaves the table alone; each of the others leaves
a table in working order.
-/

namespace NodeWatch.Store

/-- The times that a call gives to a store have plain years. -/
def Operation.HasPlainTimes : Operation → Prop
  | .create n => n.lastSeen.HasPlainYear
  | .update _ _ p => ∀ u, p.lastSeen = some u → u.HasPlainYear
  | .touch _ u => u.HasPlainYear
  | .findByAddress _ | .findByName _ | .get _ | .list | .delete _ => True

/-- The times of a call can be read back from a table. -/
def Request.Plain (q : Request) : Prop := q.stamp.now.HasPlainYear ∧ q.op.HasPlainTimes

/-- The identity that is used up by a call. -/
def Request.creates? (q : Request) : Option String :=
  match q.op with
  | .create _ => some q.stamp.id
  | _ => none

/-- The record after another sign of life, be it later or not. -/
def Record.seenAt (u : Time.Instant) (r : Record) : Record := { r with lastSeen := u }

lemma keepsKey_seenAt (u : Time.Instant) : KeepsKey (Record.seenAt u) := fun _ => rfl

lemma Record.asRead_seenAt (u : Time.Instant) (o : Record) :
    (o.seenAt u).asRead = o.asRead.seenAt u := by
  obtain ⟨x, v, h, h'⟩ := o.asRead_congr (o.seenAt u) rfl rfl
  rw [h, h']
  rfl

lemma Record.Readable.seenAt {r : Record} (h : r.Readable) {u : Time.Instant}
    (hu : u.HasPlainYear) : (r.seenAt u).Readable :=
  ⟨hu, h.createdAt, h.updatedAt, h.deletedAt⟩

lemma Record.Readable.deleted {r : Record} (h : r.Readable) {now : Time.Instant}
    (hnow : now.HasPlainYear) : (r.deleted now).Readable :=
  ⟨h.lastSeen, h.createdAt, hnow, fun _ he => Option.some.inj he ▸ hnow⟩

namespace Sql.Table

/-- A table in working order, whose rows are those of records that can be read. -/
structure InOrder (t : Table) (os : List Record) : Prop where
  keeps : t.Keeps os
  orderly : Orderly os
  readable : ∀ o ∈ os, o.Readable

variable {t : Table} {os : List Record} {o n : Record}

lemma inOrder_empty : InOrder {} [] := ⟨⟨rfl, rfl, rfl, rfl⟩, orderly_nil, by simp⟩

lemma admits_liveName (name : String) (o : Record) :
    (Key.liveName name).admits (Row.ofRecord o) = (o.isLive && decide (o.name = name)) := by
  simp only [Key.admits, Row.isLive_ofRecord, Row.ofRecord, Cell.text.injEq]
  rw [Bool.and_comm]

/-- The rows of the live records are sorted as the records are. -/
lemma Keeps.selectLive (h : t.Keeps os) :
    exec .selectLive t = (.ok ((sortByName (os.filter (·.isLive))).map Row.ofRecord), t) := by
  have hlive : (os.map Row.ofRecord).filter (·.isLive) =
      (os.filter (·.isLive)).map Row.ofRecord := by
    rw [List.filter_map]
    congr 2
    funext o
    exact Row.isLive_ofRecord o
  have hsort : (sortByName (os.filter (·.isLive))).map Row.ofRecord =
      ((os.filter (·.isLive)).map Row.ofRecord).mergeSort fun a b =>
        (a .name).asText ≤ (b .name).asText :=
    List.map_mergeSort fun _ _ _ _ => rfl
  simp only [exec, h.there, if_true, h.rows, hlive, hsort]

/-- The rows of records are read one by one. -/
lemma mapM_typed (rs : List Record) :
    ((rs.map Row.ofRecord).mapM Row.typed >>= fun ts => ts.mapM Row.Typed.record) =
      rs.mapM fun o => (Row.ofRecord o).record := by
  have htyped : ∀ o, ∃ c, (Row.ofRecord o).typed = .ok c := fun o => ⟨_, Row.typed_ofRecord o⟩
  choose f hf using htyped
  have hrecord : ∀ o, (Row.ofRecord o).record = (f o).record := fun o => by
    rw [Row.record, hf]
    rfl
  have hcells : ∀ l : List Record, (l.map Row.ofRecord).mapM Row.typed = .ok (l.map f) := by
    intro l
    induction l with
    | nil => rfl
    | cons o l ih => rw [List.map_cons, List.mapM_cons, hf, ih]; rfl
  rw [hcells]
  change (rs.map f).mapM Row.Typed.record = _
  induction rs with
  | nil => rfl
  | cons o l ih => rw [List.map_cons, List.mapM_cons, List.mapM_cons, ih, hrecord]

lemma mapM_rows (rs : List Record) (hr : ∀ o ∈ rs, o.Readable) :
    ((rs.map Row.ofRecord).mapM Row.typed >>= fun ts => ts.mapM Row.Typed.record) =
      .ok (rs.map Record.asRead) := by
  rw [mapM_typed]
  induction rs with
  | nil => rfl
  | cons o rs ih =>
    rw [List.mapM_cons, Row.record_ofRecord (hr o (by simp)), ih fun x hx => hr x (by simp [hx])]
    rfl

lemma mem_sortByName {rs : List Record} : o ∈ sortByName rs ↔ o ∈ rs := List.mem_mergeSort

lemma InOrder.step_list (h : t.InOrder os) (s : Stamp) :
    Sql.step s .list t = (.ok ((sortByName (os.filter (·.isLive))).map Record.asRead), t) := by
  have hread := mapM_rows (sortByName (os.filter (·.isLive))) fun o ho =>
    h.readable o (List.mem_of_mem_filter (mem_sortByName.mp ho))
  unfold Sql.step script
  refine (Program.run_call_bind exec _ _ t).trans ?_
  rw [h.keeps.selectLive]
  exact congrArg (·, t) hread

/-- The record of an identity is read. -/
lemma InOrder.run_id (h : t.InOrder os) (id : String) :
    (selectRecord (.id id)).run exec t = (.ok ((Store.withId os id).map Record.asRead), t) :=
  run_selectRecord h.keeps h.readable (admits_id id)

/-- A record gives way to another one. -/
lemma InOrder.amend (h : t.InOrder os) {t' : Table} (hn : n.Readable) {id : String}
    (hkeeps : t'.Keeps (Store.amend id (fun _ => n) os))
    (ho : Orderly (Store.amend id (fun _ => n) os)) :
    t'.InOrder (Store.amend id (fun _ => n) os) := by
  refine ⟨hkeeps, ho, fun x hx => ?_⟩
  obtain ⟨y, hy, rfl⟩ := mem_amend.mp hx
  split
  · exact hn
  · exact h.readable y hy

/-- What is left after a record has given way to one that clashes with nothing. -/
lemma InOrder.rewritten (h : t.InOrder os) {t' : Table} (hid : n.id = o.id) (hn : n.Readable)
    (hfree : Medium.table.clash? os n = none)
    (hkeeps : t'.Keeps (Store.amend o.id (fun _ => n) os)) :
    t'.InOrder (Store.amend o.id (fun _ => n) os) := by
  refine h.amend hn hkeeps (h.orderly.replace hid fun hl => ?_)
  rw [← hid]
  exact Medium.free_of_clash?_eq_none (.inr hl) hfree

lemma InOrder.rewrite (h : t.InOrder os) (hm : o ∈ os) (hid : n.id = o.id) (hn : n.Readable)
    {p : Row → Bool} {f : Row → Row} (hp : ∀ x ∈ os, p (Row.ofRecord x) = decide (x.id = o.id))
    (hf : f (Row.ofRecord o) = Row.ofRecord n) (hfree : Medium.table.clash? os n = none) :
    ∃ t', t.update p f = (.ok 1, t') ∧ t'.InOrder (Store.amend o.id (fun _ => n) os) := by
  obtain ⟨t', ht, hkeeps⟩ := (h.keeps.rewrite h.orderly hm hid hp hf).2 hfree
  exact ⟨t', ht, h.rewritten hid hn hfree hkeeps⟩

/-- A row that cannot be written is told as a clash of its record. -/
lemma ofWrite_of_clash {u : Unique} (hu : Medium.table.clash? os n = some u) :
    Fault.ofWrite n (.notUnique (column u)) = Ledger.clashError n u := by
  obtain ⟨-, -, -, -, ⟨rfl, -⟩ | ⟨rfl, -⟩⟩ := Medium.clash?_eq_some hu <;> rfl

lemma InOrder.insert (h : t.InOrder os) (hid : ∀ o ∈ os, o.id ≠ n.id) (hl : n.isLive = true)
    (hn : n.Readable) (hfree : Medium.table.clash? os n = none) :
    ∃ t', exec (.insert (Row.ofRecord n)) t = (.ok (1 : Nat), t') ∧ t'.InOrder (os ++ [n]) := by
  obtain ⟨t', ht, hkeeps⟩ := h.keeps.insert hid hfree
  refine ⟨t', ht, hkeeps, h.orderly.append hid fun _ => ?_, fun x hx => ?_⟩
  · exact Medium.not_taken_of_clash?_eq_none hl hid hfree
  · rcases List.mem_append.mp hx with hx | hx
    · exact h.readable x hx
    · rw [List.mem_singleton.mp hx]
      exact hn

/-- A record is added, or nothing is changed. -/
lemma InOrder.insert_cases (h : t.InOrder os) (hl : n.isLive = true) (hn : n.Readable) :
    (exec (.insert (Row.ofRecord n)) t).2 = t ∨
      (exec (.insert (Row.ofRecord n)) t).2.InOrder (os ++ [n]) := by
  by_cases hid : ∀ o ∈ os, o.id ≠ n.id
  · cases hc : Medium.table.clash? os n with
    | some u => exact .inl (by rw [h.keeps.insert_of_clash hid hc])
    | none =>
      obtain ⟨t', ht, horder⟩ := h.insert hid hl hn hc
      exact .inr (by rwa [ht])
  · -- the identity is in use
    push Not at hid
    obtain ⟨o, ho, he⟩ := hid
    have hused : (t.rows.any fun r => r .id = Row.ofRecord n .id) = true := by
      rw [h.keeps.rows]
      exact List.any_eq_true.mpr ⟨_, List.mem_map_of_mem ho, by simp [Row.ofRecord, he]⟩
    obtain ⟨c, hc⟩ : ∃ c, clash? t.rows (Row.ofRecord n) = some c := by
      simp only [clash?, hused]
      split
      · exact ⟨_, rfl⟩
      · split <;> exact ⟨_, rfl⟩
    left
    simp only [exec, h.keeps.there, h.keeps.insertable, hc]
    rfl

/-- The row of a record is replaced, unless its new name is that of another live one. -/
lemma Keeps.replace_cases (h : t.Keeps os) (ho : Orderly os) (hm : o ∈ os) (hid : n.id = o.id)
    (ha : n.address = o.address) (hc : n.createdAt = o.createdAt) :
    (∀ u, Medium.table.clash? os n = some u →
      exec (.replace (Row.ofRecord n)) t = (.error (.notUnique (column u)), t)) ∧
    (Medium.table.clash? os n = none → ∃ t',
      exec (.replace (Row.ofRecord n)) t = (.ok (1 : Nat), t') ∧
        t'.Keeps (Store.amend o.id (fun _ => n) os)) := by
  have hp : ∀ x ∈ os, decide (Row.ofRecord x .id = Row.ofRecord n .id) = decide (x.id = o.id) := by
    intro x _
    simp [Row.ofRecord, hid]
  simp only [exec, h.there]
  exact h.rewrite ho hm hid hp (Row.replaced_ofRecord hid ha hc)

lemma InOrder.replace (h : t.InOrder os) (hm : o ∈ os) (hid : n.id = o.id)
    (ha : n.address = o.address) (hc : n.createdAt = o.createdAt) (hn : n.Readable) :
    (∀ u, Medium.table.clash? os n = some u →
      exec (.replace (Row.ofRecord n)) t = (.error (.notUnique (column u)), t)) ∧
    (Medium.table.clash? os n = none → ∃ t',
      exec (.replace (Row.ofRecord n)) t = (.ok (1 : Nat), t') ∧
        t'.InOrder (Store.amend o.id (fun _ => n) os)) := by
  obtain ⟨hclash, hfree⟩ := h.keeps.replace_cases h.orderly hm hid ha hc
  refine ⟨hclash, fun hnone => ?_⟩
  obtain ⟨t', ht, hkeeps⟩ := hfree hnone
  exact ⟨t', ht, h.rewritten hid hn hnone hkeeps⟩

/-- The row of a record gets another sign of life. -/
lemma InOrder.setLastSeen (h : t.InOrder os) (hm : o ∈ os) {u : Time.Instant}
    (hu : u.HasPlainYear) :
    ∃ t', exec (.setLastSeen o.id (Row.instantText u)) t = (.ok (1 : Nat), t') ∧
      t'.InOrder (Store.amend o.id (fun _ => o.seenAt u) os) := by
  simp only [exec, h.keeps.there]
  exact h.rewrite (n := o.seenAt u) hm rfl ((h.readable o hm).seenAt hu)
    (by intro x _; simp [Row.ofRecord]) (Row.set_lastSeen o u)
    (Medium.clash?_table_of_key h.orderly hm (keepsKey_seenAt u o))

lemma set_deleted {now : Time.Instant} (hv : o.version + 1 < 2 ^ 63) :
    (((Row.ofRecord o).set .deletedAt (.text (Row.instantText now))).set .updatedAt
      (.text (Row.instantText now))).set .version (Row.ofRecord o .version).succ =
      Row.ofRecord (o.deleted now) := by
  have hfits : fits ((o.version : Int) + 1) = true := by
    simp only [fits, Bool.and_eq_true, decide_eq_true_eq]
    omega
  have hsucc : (Row.ofRecord o .version).succ = .integer (signed (o.version + 1)) := by
    rw [signed_of_lt hv]
    simp only [Row.ofRecord, signed_of_lt (by omega : o.version < 2 ^ 63), Cell.succ, hfits,
      if_true]
    rfl
  rw [hsucc]
  funext c
  cases c <;> rfl

lemma asRead_deleted (now : Time.Instant) (hv : o.version + 1 < 2 ^ 63) :
    (o.deleted now).asRead = o.asRead.deleted now := by
  have hnext : (signed (o.version + 1)).toNat = o.version + 1 := by
    rw [signed_of_lt hv, Int.toNat_natCast]
  have hsame : (signed o.version).toNat = o.version := by
    rw [signed_of_lt (Nat.lt_of_succ_lt hv), Int.toNat_natCast]
  unfold Record.asRead Record.deleted
  simp only [hnext, hsame]

/-- The row of a live record is marked as deleted. -/
lemma Keeps.markDeleted (h : t.Keeps os) (ho : Orderly os) (hm : o ∈ os) (hl : o.isLive = true)
    (now : Time.Instant) (hv : o.version + 1 < 2 ^ 63) :
    ∃ t', exec (.markDeleted o.id (Row.instantText now)) t = (.ok (1 : Nat), t') ∧
      t'.Keeps (Store.amend o.id (fun _ => o.deleted now) os) := by
  have hdead : (o.deleted now).isLive = false := rfl
  have hp : ∀ x ∈ os, (Row.ofRecord x .id = .text o.id && (Row.ofRecord x).isLive) =
      decide (x.id = o.id) := by
    intro x hx
    rw [Row.isLive_ofRecord]
    by_cases hid : x.id = o.id
    · simp [Row.ofRecord, ho.eq_of_id hx hm hid, hl]
    · simp [Row.ofRecord, hid]
  have hrewrite := h.rewrite (n := o.deleted now) (p := fun x => x .id = .text o.id && x.isLive)
    (f := fun x => ((x.set .deletedAt (.text (Row.instantText now))).set .updatedAt
      (.text (Row.instantText now))).set .version (x .version).succ) ho hm rfl hp (set_deleted hv)
  obtain ⟨t', ht, hkeeps⟩ := hrewrite.2 (Medium.clash?_table_of_dead hdead)
  refine ⟨t', ?_, hkeeps⟩
  simp only [exec, h.there]
  exact ht

lemma InOrder.markDeleted (h : t.InOrder os) (hm : o ∈ os) (hl : o.isLive = true)
    {now : Time.Instant} (hnow : now.HasPlainYear) (hv : o.version + 1 < 2 ^ 63) :
    ∃ t', exec (.markDeleted o.id (Row.instantText now)) t = (.ok (1 : Nat), t') ∧
      t'.InOrder (Store.amend o.id (fun _ => o.deleted now) os) := by
  obtain ⟨t', ht, hkeeps⟩ := h.keeps.markDeleted h.orderly hm hl now hv
  exact ⟨t', ht, h.rewritten (n := o.deleted now) rfl ((h.readable o hm).deleted hnow)
    (Medium.clash?_table_of_dead rfl) hkeeps⟩

/-- Nothing is marked if the identity is that of no live record. -/
lemma Keeps.markDeleted_of_none (h : t.Keeps os) {id : String}
    (hno : ∀ o ∈ os, o.id = id → o.isLive = false) (v : String) :
    exec (.markDeleted id v) t = (.ok (0 : Nat), t) := by
  simp only [exec, h.there]
  refine update_of_none h _ fun o ho => ?_
  simp only [Row.isLive_ofRecord, Bool.and_eq_false_imp, decide_eq_true_eq]
  intro hid
  exact hno o ho (by simpa [Row.ofRecord] using hid)

lemma InOrder.markDeleted_of_none (h : t.InOrder os) {id : String}
    (hno : ∀ o ∈ os, o.id = id → o.isLive = false) (v : String) :
    exec (.markDeleted id v) t = (.ok (0 : Nat), t) :=
  h.keeps.markDeleted_of_none hno v

end Sql.Table

end NodeWatch.Store
