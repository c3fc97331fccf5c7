import NodeWatch.Proofs.Store.Sql.Table

/-!
The store in a table answers as its ledger does.
-/

namespace NodeWatch.Store.Sql

namespace Table

variable {t : Table} {os : List Record} {l : Ledger}

lemma keepsKey_asRead : KeepsKey Record.asRead := Medium.table.read_key

/-- The ledger of a table: the records of its rows as they are read. -/
structure Tells (t : Table) (l : Ledger) (os : List Record) : Prop where
  keeps : t.Keeps os
  readable : ∀ o ∈ os, o.Readable
  medium : l.medium = .table
  records : l.records = os.map Record.asRead

/-- The records are what the rows are read as. -/
lemma Tells.rows_read (h : t.Tells l os) :
    t.rows.map Row.record = l.records.map (Except.ok : Record → Except Error Record) := by
  rw [h.keeps.rows, h.records, List.map_map, List.map_map]
  exact List.map_congr_left fun o ho => Row.record_ofRecord (h.readable o ho)

lemma Tells.orderly (h : t.Tells l os) (hs : l.Sound) : Orderly os := by
  have ho := hs.orderly
  rw [h.records] at ho
  exact ho.of_map keepsKey_asRead

lemma Tells.liveAt (h : t.Tells l os) (a : Net.Address) :
    Store.liveAt l.records a = (Store.liveAt os a).map Record.asRead := by
  rw [h.records, liveAt_map keepsKey_asRead]

lemma Tells.withId (h : t.Tells l os) (id : String) :
    Store.withId l.records id = (Store.withId os id).map Record.asRead := by
  rw [h.records, withId_map keepsKey_asRead]

lemma Tells.run_id (h : t.Tells l os) (id : String) :
    (selectRecord (.id id)).run exec t = (.ok (Store.withId l.records id), t) := by
  rw [run_selectRecord h.keeps h.readable (admits_id id), h.withId]
  rfl

lemma Tells.run_liveAddress (h : t.Tells l os) (a : Net.Address) :
    (selectRecord (.liveAddress a.toString)).run exec t = (.ok (Store.liveAt l.records a), t) := by
  rw [run_selectRecord h.keeps h.readable (admits_liveAddress a), h.liveAt]
  rfl

/-- A record is read from a row. -/
lemma Tells.exists_row (h : t.Tells l os) {id : String} {r : Record}
    (hw : Store.withId l.records id = some r) : ∃ o ∈ os, o.id = id ∧ o.asRead = r := by
  rw [h.withId] at hw
  obtain ⟨o, ho, hor⟩ := Option.map_eq_some_iff.mp hw
  obtain ⟨hom, hoid⟩ := withId_eq_some ho
  exact ⟨o, hom, hoid, hor⟩

/-- A change of a record in its row is that change of the record in the ledger. -/
lemma Tells.amend (h : t.Tells l os) {t' : Table} {id : String} {f g : Record → Record}
    (ht : t'.Keeps (Store.amend id g os)) (hfg : ∀ o, (g o).asRead = f o.asRead)
    (hread : ∀ o ∈ os, o.Readable → (g o).Readable) :
    t'.Tells (l.amend id f) (Store.amend id g os) where
  keeps := ht
  readable := by
    intro x hx
    obtain ⟨o, ho, rfl⟩ := mem_amend.mp hx
    split
    · exact hread o ho (h.readable o ho)
    · exact h.readable o ho
  medium := h.medium
  records := by
    simp only [Ledger.amend, Store.amend, h.records, List.map_map]
    refine List.map_congr_left fun o _ => ?_
    have hid : o.asRead.id = o.id := keepsKey_asRead.id_eq o
    by_cases he : o.id = id <;> simp [hid, he, hfg]

lemma readable_new {n : NewRecord} {s : Stamp} (hn : n.lastSeen.HasPlainYear)
    (hs : s.now.HasPlainYear) : (n.toRecord s).Readable :=
  ⟨hn, hs, hs, fun _ h => by simp [NewRecord.toRecord] at h⟩

lemma readable_latest {t u : Time.Instant} (ht : t.HasPlainYear) (hu : u.HasPlainYear) :
    (t.latest u).HasPlainYear := by
  unfold Time.Instant.latest
  split <;> assumption

lemma readable_asRead {o : Record} (h : o.Readable) : o.asRead.Readable := by
  obtain ⟨x, v, hx, -⟩ := o.asRead_congr o rfl rfl
  rw [hx]
  exact ⟨h.lastSeen, h.createdAt, h.updatedAt, h.deletedAt⟩

lemma readable_apply {r : Record} (h : r.Readable) {now : Time.Instant} (hnow : now.HasPlainYear)
    {p : Patch} (hlast : ∀ u, p.lastSeen = some u → u.HasPlainYear) :
    ({ p.apply r with version := r.version + 1, updatedAt := now } : Record).Readable := by
  refine ⟨?_, h.createdAt, hnow, h.deletedAt⟩
  cases hp : p.lastSeen with
  | none => simpa [Patch.apply, hp] using h.lastSeen
  | some u => simpa [Patch.apply, hp] using readable_latest h.lastSeen (hlast u hp)

/-- The answer to a call, and what the table tells after it. -/
def Agrees (now : Time.Instant) (op : Operation) (t : Table) (l : Ledger) : Prop :=
  (Sql.step ⟨Repository.identity (l.made + 1), now⟩ op t).1 = (l.step now op).1 ∧
    ∃ os', (Sql.step ⟨Repository.identity (l.made + 1), now⟩ op t).2.Tells (l.step now op).2 os'

lemma agrees_of_eq {now : Time.Instant} {op : Operation} {a : op.Answer} {t' : Table} {l' : Ledger}
    {os' : List Record} (ht : Sql.step ⟨Repository.identity (l.made + 1), now⟩ op t = (a, t'))
    (hl : l.step now op = (a, l')) (h : t'.Tells l' os') : Agrees now op t l := by
  unfold Agrees
  rw [ht, hl]
  exact ⟨rfl, os', h⟩

/-- Inserting a row is all there is to the creation of a record. -/
lemma step_create {s : Stamp} {n : NewRecord} {t' : Table} {answer : Except Fault Nat}
    (h : exec (.insert (Row.ofRecord (n.toRecord s))) t = (answer, t')) :
    Sql.step s (.create n) t =
      ((lift (Fault.ofWrite (n.toRecord s)) answer).map fun _ => n.toRecord s, t') := by
  refine (Program.run_call_bind exec _ _ t).trans ?_
  rw [h]
  rfl

lemma Tells.create (h : t.Tells l os) (hs : l.Sound) {now : Time.Instant}
    (hnow : now.HasPlainYear) {n : NewRecord} (hn : n.lastSeen.HasPlainYear) :
    Agrees now (.create n) t l := by
  have hid : ∀ o ∈ os, o.id ≠ (l.next now n).id := by
    intro o ho
    rw [← keepsKey_asRead.id_eq o]
    exact hs.next_id now n _ (by rw [h.records]; exact List.mem_map_of_mem ho)
  have hclash : l.medium.clash? l.records (l.next now n) =
      Medium.table.clash? os (l.next now n) := by
    rw [h.medium, h.records, Medium.clash?_map keepsKey_asRead]
  cases hc : Medium.table.clash? os (l.next now n) with
  | some u =>
    refine agrees_of_eq (step_create (h.keeps.insert_of_clash hid hc)) ?_ h
    have herr : Fault.ofWrite (l.next now n) (.notUnique (column u)) =
        Ledger.clashError (l.next now n) u := by
      obtain ⟨-, -, -, -, ⟨rfl, -⟩ | ⟨rfl, -⟩⟩ := Medium.clash?_eq_some hc <;> rfl
    simp only [Ledger.step, hclash, hc, lift, ← herr]
    rfl
  | none =>
    obtain ⟨t', ht, hkeeps⟩ := h.keeps.insert hid hc
    refine agrees_of_eq (step_create ht) ?_
      (?_ : t'.Tells (l.add (l.next now n)) (os ++ [l.next now n]))
    · simp only [Ledger.step, hclash, hc]
      rfl
    · refine ⟨hkeeps, ?_, h.medium, ?_⟩
      · intro o ho
        rcases List.mem_append.mp ho with ho | ho
        · exact h.readable o ho
        · rw [List.mem_singleton] at ho
          rw [ho]
          exact readable_new hn hnow
      · simp only [Ledger.add, h.records, h.medium, List.map_append]
        rfl

lemma step_touch_of_none {s : Stamp} {id : String} {u : Time.Instant}
    (hsel : (selectRecord (.id id)).run exec t = (.ok none, t)) :
    Sql.step s (.touch id u) t = (.error (.notFound id), t) := by
  unfold Sql.step script
  refine (Program.run_bind exec _ _ t).trans ?_
  rw [hsel]
  rfl

lemma step_touch {s : Stamp} {id : String} {u : Time.Instant} {r : Record}
    (hsel : (selectRecord (.id id)).run exec t = (.ok (some r), t)) :
    Sql.step s (.touch id u) t =
      if r.lastSeen < u then
        ((lift Fault.error (exec (.setLastSeen id (Row.instantText u)) t).1).map fun _ => (),
          (exec (.setLastSeen id (Row.instantText u)) t).2)
      else (.ok (), t) := by
  unfold Sql.step script
  refine (Program.run_bind exec _ _ t).trans ?_
  rw [hsel]
  simp only
  split <;> rfl

/-- A later sign of life is written. -/
lemma Keeps.setLastSeen (h : t.Keeps os) (ho : Orderly os) {o : Record} (hm : o ∈ os)
    {u : Time.Instant} (hlt : o.lastSeen < u) :
    ∃ t', exec (.setLastSeen o.id (Row.instantText u)) t = (.ok (1 : Nat), t') ∧
      t'.Keeps (Store.amend o.id (Record.touched u) os) := by
  have hset : (Row.ofRecord o).set .lastSeen (.text (Row.instantText u)) =
      Row.ofRecord (Record.touched u o) := by
    rw [Row.set_lastSeen, Record.touched, Time.Instant.latest, if_pos hlt]
  obtain ⟨t', ht, hkeeps⟩ := h.update ho hm (keepsKey_touched u)
    (p := fun x => x .id = .text o.id) (f := (·.set .lastSeen (.text (Row.instantText u))))
    (by intro x; simp [Row.ofRecord]) hset
  refine ⟨t', ?_, hkeeps⟩
  simp only [exec, h.there]
  exact ht

lemma Tells.touch (h : t.Tells l os) (hs : l.Sound) {now u : Time.Instant}
    (hu : u.HasPlainYear) (id : String) : Agrees now (.touch id u) t l := by
  have hsel := h.run_id id
  cases hw : Store.withId l.records id with
  | none =>
    rw [hw] at hsel
    exact agrees_of_eq (step_touch_of_none hsel) (Ledger.step_touch_of_none hw) h
  | some r =>
    rw [hw] at hsel
    have hstep : l.step now (.touch id u) = _ := Ledger.step_touch hw
    have hrun := step_touch (s := ⟨Repository.identity (l.made + 1), now⟩) (u := u) hsel
    obtain ⟨o, hom, rfl, rfl⟩ := h.exists_row hw
    have hseen : o.asRead.lastSeen = o.lastSeen := Medium.table.read_lastSeen o
    have hread : ∀ o ∈ os, o.Readable → (Record.touched u o).Readable := fun o _ hr =>
      ⟨readable_latest hr.lastSeen hu, hr.createdAt, hr.updatedAt, hr.deletedAt⟩
    rw [hseen] at hrun
    by_cases hlt : o.lastSeen < u
    · obtain ⟨t', hexec, hkeeps⟩ := h.keeps.setLastSeen (h.orderly hs) hom hlt
      rw [if_pos hlt, hexec] at hrun
      exact agrees_of_eq hrun hstep (h.amend hkeeps (Record.asRead_touched u) hread)
    · rw [if_neg hlt] at hrun
      -- a sign of life that is not later changes nothing
      have hsame : Store.amend o.id (Record.touched u) os = os := amend_eq_self fun x hx he => by
        obtain rfl := (h.orderly hs).eq_of_id hx hom he
        rw [Record.touched, Time.Instant.latest, if_neg hlt]
      have hkeeps : t.Keeps (Store.amend o.id (Record.touched u) os) := by rw [hsame]; exact h.keeps
      exact agrees_of_eq hrun hstep (h.amend hkeeps (Record.asRead_touched u) hread)

lemma step_update_of_none {s : Stamp} {id : String} (expected : Nat) (p : Patch)
    (hsel : (selectRecord (.id id)).run exec t = (.ok none, t)) :
    Sql.step s (.update id expected p) t = (.error (.notFound id), t) := by
  unfold Sql.step script
  refine (Program.run_bind exec _ _ t).trans ?_
  rw [hsel]
  rfl

lemma step_update {s : Stamp} {id : String} (expected : Nat) (p : Patch) {r : Record}
    (hsel : (selectRecord (.id id)).run exec t = (.ok (some r), t)) :
    Sql.step s (.update id expected p) t =
      if r.version ≠ expected then (.error (.conflict id expected r.version), t)
      else if maxVersion ≤ r.version then (.error .versionOverflow, t)
      else
        ((lift (Fault.ofWrite { p.apply r with version := r.version + 1, updatedAt := s.now })
          (exec (.replace (Row.ofRecord
            { p.apply r with version := r.version + 1, updatedAt := s.now })) t).1).map
          fun _ => { p.apply r with version := r.version + 1, updatedAt := s.now },
          (exec (.replace (Row.ofRecord
            { p.apply r with version := r.version + 1, updatedAt := s.now })) t).2) := by
  unfold Sql.step script
  refine (Program.run_bind exec _ _ t).trans ?_
  rw [hsel]
  simp only
  split
  · rfl
  · split <;> rfl

/-- The row of a record is replaced. -/
lemma Keeps.replace (h : t.Keeps os) (ho : Orderly os) {o : Record} (hm : o ∈ os)
    {g : Record → Record} (hg : KeepsKey g) (hcreated : (g o).createdAt = o.createdAt) :
    ∃ t', exec (.replace (Row.ofRecord (g o))) t = (.ok (1 : Nat), t') ∧
      t'.Keeps (Store.amend o.id g os) := by
  have hrow : replaced (Row.ofRecord (g o)) (Row.ofRecord o) = Row.ofRecord (g o) :=
    Row.replaced_ofRecord (hg.id_eq o) (hg.address_eq o) hcreated
  obtain ⟨t', ht, hkeeps⟩ := h.update ho hm hg (p := fun x => x .id = Row.ofRecord (g o) .id)
    (f := replaced (Row.ofRecord (g o))) (by intro x; simp [Row.ofRecord, hg.id_eq]) hrow
  refine ⟨t', ?_, hkeeps⟩
  simp only [exec, h.there]
  exact ht

lemma Tells.update (h : t.Tells l os) (hs : l.Sound) {now : Time.Instant}
    (hnow : now.HasPlainYear) (id : String) (expected : Nat) {p : Patch} (hp : p.name = none)
    (hlast : ∀ u, p.lastSeen = some u → u.HasPlainYear) :
    Agrees now (.update id expected p) t l := by
  have hsel := h.run_id id
  cases hw : Store.withId l.records id with
  | none =>
    rw [hw] at hsel
    exact agrees_of_eq (step_update_of_none expected p hsel) (Ledger.step_update_of_none hw) h
  | some r =>
    rw [hw] at hsel
    have hrun := step_update (s := ⟨Repository.identity (l.made + 1), now⟩) expected p hsel
    by_cases hv : r.version ≠ expected
    · rw [if_pos hv] at hrun
      exact agrees_of_eq hrun (Ledger.step_update_conflict hw hv) h
    rw [if_neg hv] at hrun
    obtain rfl : r.version = expected := not_not.mp hv
    by_cases hmax : maxVersion ≤ r.version
    · rw [if_pos hmax] at hrun
      exact agrees_of_eq hrun (Ledger.step_update_overflow hw hmax) h
    rw [if_neg hmax] at hrun
    obtain ⟨hr, -⟩ := withId_eq_some hw
    obtain ⟨o, hom, rfl, rfl⟩ := h.exists_row hw
    have hkey : (p.apply o.asRead).key = o.asRead.key := by
      simp [Record.key, Patch.apply, hp, Record.isLive]
    have hfree : l.medium.clash? l.records (p.apply o.asRead) = none := by
      rw [h.medium]
      exact Medium.clash?_table_of_key hs.orderly hr hkey
    have hstep : l.step now (.update o.id o.asRead.version p) = _ :=
      Ledger.step_update_free hw hmax hfree
    -- the row is that of the record as it was read, with the changes
    let g (o : Record) : Record :=
      { p.apply o.asRead with version := o.asRead.version + 1, updatedAt := now }
    have hg : KeepsKey g := fun o => by
      rw [← keepsKey_asRead o]
      simp [g, Record.key, Patch.apply, hp, Record.isLive]
    have hcreated : (g o).createdAt = o.createdAt := by
      obtain ⟨x, v, hx, -⟩ := o.asRead_congr o rfl rfl
      simp only [g, Patch.apply, hx]
    obtain ⟨t', hexec, hkeeps⟩ := h.keeps.replace (h.orderly hs) hom hg hcreated
    have hrun' : Sql.step ⟨Repository.identity (l.made + 1), now⟩
        (.update o.id o.asRead.version p) t = (.ok (g o), t') := by
      rw [hrun, hexec]
      rfl
    refine agrees_of_eq hrun' hstep (h.amend hkeeps (fun x => ?_) fun x hx hr => ?_)
    · rw [h.medium]
      rfl
    · exact readable_apply (readable_asRead hr) hnow hlast

/-- A call on a table is answered as by its ledger. -/
theorem Tells.step (h : t.Tells l os) (hs : l.Sound) {now : Time.Instant}
    (hnow : l.medium.Keeps now) {op : Operation} (hop : op.Plain l.medium) :
    Agrees now op t l := by
  have hkeeps : ∀ {u}, l.medium.Keeps u → u.HasPlainYear := fun hu => by rwa [h.medium] at hu
  cases op with
  | findByAddress a => exact agrees_of_eq (h.run_liveAddress a) rfl h
  | get id => exact agrees_of_eq (h.run_id id) rfl h
  | create n => exact h.create hs (hkeeps hnow) (hkeeps hop)
  | update id expected p =>
    exact h.update hs (hkeeps hnow) id expected hop.1 fun u hu => hkeeps (hop.2 u hu)
  | touch id u => exact h.touch hs (hkeeps hop) id
  | findByName n => exact hop.elim
  | list => exact hop.elim
  | delete id => exact hop.elim

end Table

end NodeWatch.Store.Sql
