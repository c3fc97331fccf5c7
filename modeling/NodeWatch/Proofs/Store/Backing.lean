import NodeWatch.Proofs.Store.Memory
import NodeWatch.Proofs.Store.Written

/-!
Both kinds of store answer as what was written to them tells.
-/

namespace NodeWatch.Store

/-- A call on either kind of store. -/
def Backing.step (s : Stamp) (op : Operation) : Backing → op.Answer × Backing
  | .memory m => ((m.step s op).1, .memory (m.step s op).2)
  | .table t inFile => ((Sql.step s op t).1, .table (Sql.step s op t).2 inFile)

lemma Repository.step_eq (r : Repository) (now : Time.Instant) (op : Operation) :
    r.step now op = ((r.backing.step ⟨identity (r.made + 1), now⟩ op).1,
      ⟨(r.backing.step ⟨identity (r.made + 1), now⟩ op).2,
        if hasMade op (r.backing.step ⟨identity (r.made + 1), now⟩ op).1 then r.made + 1
        else r.made⟩) := by
  obtain ⟨b, made⟩ := r
  cases b <;> rfl

/-- A store in working order, and what is written in it. -/
inductive Backing.Has : Backing → Medium → List Record → Prop where
  | memory {m : Memory} {k : Hashing} {rs : List Record} (keeps : m.Keeps k rs) :
    Has (.memory m) (.memory k) rs
  | table {t : Sql.Table} {inFile : Bool} {rs : List Record} (keeps : t.Keeps rs) :
    Has (.table t inFile) .table rs

variable {s : Stamp} {k : Hashing} {rs : List Record}

/-! ### In memory -/

namespace Medium

@[simp] lemma tell?_memory (o : Option Record) : (memory k).tell? o = .ok o := by
  cases o <;> rfl

lemma mapM_tell_memory (rs : List Record) : rs.mapM (memory k).tell = .ok rs := by
  induction rs with
  | nil => rfl
  | cons r rs ih => rw [List.mapM_cons, ih]; rfl

end Medium

namespace Memory

variable {m : Memory}

/-- The answer to a call, and what is written after it. -/
def Goes (k : Hashing) (s : Stamp) (op : Operation) (m : Memory) (rs : List Record) : Prop :=
  (m.answer s op).1 = ((Medium.memory k).answer s op rs).1 ∧
    (m.answer s op).2.Keeps k ((Medium.memory k).answer s op rs).2

lemma goes_of_eq {op : Operation} {a : op.Answer} {m' : Memory} {rs' : List Record}
    (hm : m.answer s op = (a, m')) (hw : (Medium.memory k).answer s op rs = (a, rs'))
    (h : m'.Keeps k rs') : Goes k s op m rs := by
  unfold Goes
  rw [hm, hw]
  exact ⟨rfl, h⟩

lemma answer_delete_overflow {id : String} {r : Record} (hr : m.find? id = some r)
    (hl : r.isLive = true) (hmax : maxVersion ≤ r.version) :
    m.answer s (.delete id) = (.error .versionOverflow, m) := by
  simp only [Memory.answer, hr, hl, if_true]
  rw [if_pos hmax]

lemma Keeps.find?_withId (h : m.Keeps k rs) (id : String) : m.find? id = withId rs id := by
  rw [Memory.find?, h.records]
  rfl

lemma Keeps.find?_named (h : m.Keeps k rs) (n : String) :
    m.live.find? (·.name = n) = rs.find? fun r => r.isLive && r.name = n := by
  rw [h.live, List.find?_filter]
  congr 1
  funext r
  simp

/-- A record gives way to another one with its identity. -/
lemma Keeps.put_amend (h : m.Keeps k rs) (ho : Orderly rs) {id : String} {r new : Record}
    (hr : withId rs id = some r) (hid : new.id = id) :
    (m.put new).Keeps k (amend id (fun _ => new) rs) := by
  obtain ⟨hmem, rfl⟩ := withId_eq_some hr
  have := h.put new
  rwa [putInto_of_mem ho.1 hmem hid] at this

lemma Keeps.written_amend (h : m.Keeps k rs) (ho : Orderly rs) {id : String} {r new : Record}
    (hr : withId rs id = some r) (hid : new.id = id) :
    (m.written new).Keeps k (amend id (fun _ => new) rs) :=
  have hput := h.put_amend ho hr hid
  ⟨hput.online, hput.willing, hput.hashing, hput.records⟩

variable (h : m.Keeps k rs)
include h

lemma Keeps.goes_create {n : NewRecord} (hnew : ∀ r ∈ rs, r.id ≠ s.id) :
    Goes k s (.create n) m rs := by
  have hclash := h.clash?_eq (n.toRecord s)
  cases hu : (Medium.memory k).clash? rs (n.toRecord s) with
  | some u =>
    rw [hu] at hclash
    exact goes_of_eq (answer_create_clash hclash) (Medium.answer_create_clash hu) h
  | none =>
    rw [hu] at hclash
    refine goes_of_eq (answer_create_free hclash) (Medium.answer_create_free hu) ?_
    rw [← putInto_of_new hnew]
    exact h.written _

lemma Keeps.goes_update (ho : Orderly rs) (id : String) (v : Nat) (p : Patch) :
    Goes k s (.update id v p) m rs := by
  have hfind := h.find?_withId id
  cases hr : withId rs id with
  | none =>
    rw [hr] at hfind
    exact goes_of_eq (answer_update_of_none hfind) (Medium.answer_update_of_none hr) h
  | some r =>
    rw [hr] at hfind
    have htell : (Medium.memory k).tell r = .ok r := rfl
    by_cases hv : r.version = v
    · subst hv
      by_cases hmax : maxVersion ≤ r.version
      · exact goes_of_eq (answer_update_overflow hfind hmax)
          (Medium.answer_update_overflow hr htell hmax) h
      · have hclash := h.clash?_eq (r.revised s.now p)
        cases hu : (Medium.memory k).clash? rs (r.revised s.now p) with
        | some u =>
          rw [hu] at hclash
          exact goes_of_eq (answer_update_clash hfind hmax hclash)
            (Medium.answer_update_clash hr htell hmax hu) h
        | none =>
          rw [hu] at hclash
          exact goes_of_eq (answer_update_free hfind hmax hclash)
            (Medium.answer_update_free hr htell hmax hu)
            (h.written_amend ho hr (withId_eq_some hr).2)
    · exact goes_of_eq (answer_update_conflict hfind hv)
        (Medium.answer_update_conflict hr htell hv) h

lemma Keeps.goes_touch (ho : Orderly rs) (id : String) (u : Time.Instant) :
    Goes k s (.touch id u) m rs := by
  have hfind := h.find?_withId id
  cases hr : withId rs id with
  | none =>
    rw [hr] at hfind
    exact goes_of_eq (answer_touch_of_none hfind) (Medium.answer_touch_of_none hr) h
  | some r =>
    rw [hr] at hfind
    have htell : (Medium.memory k).tell r = .ok r := rfl
    refine goes_of_eq (answer_touch hfind) (Medium.answer_touch hr htell) ?_
    obtain ⟨hmem, rfl⟩ := withId_eq_some hr
    rw [← putInto_eq_amend ho hmem (keepsKey_touched u)]
    exact h.put _

lemma Keeps.goes_delete (ho : Orderly rs) (id : String) : Goes k s (.delete id) m rs := by
  have hfind := h.find?_withId id
  by_cases hdead : ∀ r, withId rs id = some r → r.isLive = false
  · exact goes_of_eq (answer_delete_of_dead (by rwa [hfind])) (Medium.answer_delete_of_dead hdead) h
  · push Not at hdead
    obtain ⟨r, hr, hl⟩ := hdead
    rw [hr] at hfind
    rw [ne_eq, Bool.not_eq_false] at hl
    by_cases hmax : maxVersion ≤ r.version
    · exact goes_of_eq (answer_delete_overflow hfind hl hmax)
        (Medium.answer_delete_overflow hr hl hmax) h
    · exact goes_of_eq (answer_delete hfind hl hmax) (Medium.answer_delete hr hl hmax)
        (h.written_amend ho hr (withId_eq_some hr).2)

/-- A call in memory goes as what is written tells. -/
theorem Keeps.goes (ho : Orderly rs) {op : Operation} (hadm : (Medium.memory k).Admits s rs op) :
    Goes k s op m rs := by
  cases op with
  | findByAddress a =>
    refine goes_of_eq rfl ?_ h
    simp only [Medium.answer, Medium.tell?_memory, ← h.find?_live]
    rfl
  | findByName n =>
    refine goes_of_eq rfl ?_ h
    simp only [Medium.answer, Medium.tell?_memory, ← h.find?_named]
    rfl
  | get id =>
    refine goes_of_eq rfl ?_ h
    simp only [Medium.answer, Medium.tell?_memory, ← h.find?_withId]
    rfl
  | list =>
    refine goes_of_eq rfl ?_ h
    simp only [Medium.answer, Medium.mapM_tell_memory, ← h.live]
    rfl
  | create n => exact h.goes_create hadm
  | update id v p => exact h.goes_update ho id v p
  | touch id u => exact h.goes_touch ho id u
  | delete id => exact h.goes_delete ho id

end Memory

/-! ### In a table -/

namespace Sql.Table

variable {t : Table}

/-- The answer to a call, and what is written after it. -/
def Goes (s : Stamp) (op : Operation) (t : Table) (rs : List Record) : Prop :=
  (Sql.step s op t).1 = (Medium.table.answer s op rs).1 ∧
    (Sql.step s op t).2.Keeps (Medium.table.answer s op rs).2

lemma goes_of_eq {op : Operation} {a : op.Answer} {t' : Table} {rs' : List Record}
    (ht : Sql.step s op t = (a, t')) (hw : Medium.table.answer s op rs = (a, rs'))
    (h : t'.Keeps rs') : Goes s op t rs := by
  unfold Goes
  rw [ht, hw]
  exact ⟨rfl, h⟩

/-- A record that is looked up is told, if it can be read. -/
lemma Keeps.run_select (h : t.Keeps rs) {k : Key} {p : Record → Bool}
    (hp : ∀ o, k.admits (Row.ofRecord o) = p o) :
    (selectRecord k).run exec t = (Medium.table.tell? (rs.find? p), t) := by
  have hsel : exec (.selectOne k) t = (.ok ((rs.find? p).map Row.ofRecord), t) := by
    simp [exec, h.there, find?_rows h hp]
  unfold selectRecord
  refine (Program.run_call_bind exec _ _ t).trans ?_
  rw [hsel]
  cases rs.find? p <;> rfl

lemma Keeps.run_withId (h : t.Keeps rs) (id : String) :
    (selectRecord (.id id)).run exec t = (Medium.table.tell? (withId rs id), t) :=
  h.run_select (admits_id id)

lemma step_touch_of_error {id : String} {u : Time.Instant} {e : Error}
    (hsel : (selectRecord (.id id)).run exec t = (.error e, t)) :
    Sql.step s (.touch id u) t = (.error e, t) := by
  unfold Sql.step script
  refine (Program.run_bind exec _ _ t).trans ?_
  rw [hsel]
  rfl

lemma step_update_of_error {id : String} {v : Nat} {p : Patch} {e : Error}
    (hsel : (selectRecord (.id id)).run exec t = (.error e, t)) :
    Sql.step s (.update id v p) t = (.error e, t) := by
  unfold Sql.step script
  refine (Program.run_bind exec _ _ t).trans ?_
  rw [hsel]
  rfl

variable (h : t.Keeps rs)
include h

lemma Keeps.goes_list : Goes s .list t rs := by
  have hrun : Sql.step s .list t =
      ((sortByName (rs.filter (·.isLive))).mapM Medium.table.tell, t) := by
    unfold Sql.step script
    refine (Program.run_call_bind exec _ _ t).trans ?_
    rw [h.selectLive]
    exact congrArg (·, t) (mapM_typed _)
  exact goes_of_eq hrun rfl h

lemma Keeps.goes_create {n : NewRecord} (hnew : ∀ r ∈ rs, r.id ≠ s.id) :
    Goes s (.create n) t rs := by
  cases hu : Medium.table.clash? rs (n.toRecord s) with
  | some u =>
    refine goes_of_eq (step_create (h.insert_of_clash hnew hu)) ?_ h
    simp only [Medium.answer, hu, lift, ofWrite_of_clash hu]
    rfl
  | none =>
    obtain ⟨t', ht, hkeeps⟩ := h.insert hnew hu
    refine goes_of_eq (step_create ht) ?_ hkeeps
    simp only [Medium.answer, hu]
    rfl

lemma Keeps.goes_update (ho : Orderly rs) (id : String) (v : Nat) (p : Patch) :
    Goes s (.update id v p) t rs := by
  have hsel := h.run_withId id
  cases hr : withId rs id with
  | none =>
    rw [hr] at hsel
    exact goes_of_eq (step_update_of_none v p hsel) (Medium.answer_update_of_none hr) h
  | some r =>
    rw [hr] at hsel
    cases htell : Medium.table.tell r with
    | error e =>
      rw [Medium.tell?_error htell] at hsel
      exact goes_of_eq (step_update_of_error hsel) (Medium.answer_update_of_error hr htell) h
    | ok told =>
      rw [Medium.tell?_ok htell] at hsel
      have hrun := step_update (s := s) v p hsel
      by_cases hv : told.version = v
      · subst hv
        rw [if_neg (by simp)] at hrun
        by_cases hmax : maxVersion ≤ told.version
        · rw [if_pos hmax] at hrun
          exact goes_of_eq hrun (Medium.answer_update_overflow hr htell hmax) h
        · rw [if_neg hmax] at hrun
          obtain ⟨hm, rfl⟩ := withId_eq_some hr
          have hread := Medium.tell_eq_ok htell
          have hid : told.id = r.id := by rw [hread, Medium.read_id]
          have ha : told.address = r.address := by rw [hread, Medium.read_address]
          have hc : told.createdAt = r.createdAt := by rw [hread, Medium.read_createdAt]
          obtain ⟨hclash, hfree⟩ := h.replace_cases (n := told.revised s.now p) ho hm hid ha hc
          cases hu : Medium.table.clash? rs (told.revised s.now p) with
          | some u =>
            have hreplace := hclash u hu
            rw [Record.revised] at hreplace
            rw [hreplace] at hrun
            refine goes_of_eq hrun ?_ h
            rw [Medium.answer_update_clash hr htell hmax hu, ← ofWrite_of_clash hu]
            rfl
          | none =>
            obtain ⟨t', hreplace, hkeeps⟩ := hfree hu
            rw [Record.revised] at hreplace
            rw [hreplace] at hrun
            exact goes_of_eq hrun (Medium.answer_update_free hr htell hmax hu) hkeeps
      · rw [if_pos hv] at hrun
        exact goes_of_eq hrun (Medium.answer_update_conflict hr htell hv) h

lemma Keeps.goes_touch (ho : Orderly rs) (id : String) (u : Time.Instant) :
    Goes s (.touch id u) t rs := by
  have hsel := h.run_withId id
  cases hr : withId rs id with
  | none =>
    rw [hr] at hsel
    exact goes_of_eq (step_touch_of_none hsel) (Medium.answer_touch_of_none hr) h
  | some r =>
    rw [hr] at hsel
    cases htell : Medium.table.tell r with
    | error e =>
      rw [Medium.tell?_error htell] at hsel
      exact goes_of_eq (step_touch_of_error hsel) (Medium.answer_touch_of_error hr htell) h
    | ok told =>
      rw [Medium.tell?_ok htell] at hsel
      have hrun := step_touch (s := s) (u := u) hsel
      obtain ⟨hm, rfl⟩ := withId_eq_some hr
      have hseen : told.lastSeen = r.lastSeen := by
        rw [Medium.tell_eq_ok htell, Medium.read_lastSeen]
      rw [hseen] at hrun
      have hanswer := Medium.answer_touch (s := s) (u := u) hr htell
      by_cases hlt : r.lastSeen < u
      · obtain ⟨t', hexec, hkeeps⟩ := h.setLastSeen ho hm hlt
        rw [if_pos hlt, hexec] at hrun
        exact goes_of_eq hrun hanswer hkeeps
      · rw [if_neg hlt] at hrun
        -- a sign of life that is not later changes nothing
        have hsame : amend r.id (Record.touched u) rs = rs := amend_eq_self fun x hx he => by
          obtain rfl := ho.eq_of_id hx hm he
          rw [Record.touched, Time.Instant.latest, if_neg hlt]
        rw [hsame] at hanswer
        exact goes_of_eq hrun hanswer h

lemma Keeps.goes_delete (ho : Orderly rs) (id : String)
    (hroom : ∀ r ∈ rs, r.id = id → r.version + 1 < 2 ^ 63) : Goes s (.delete id) t rs := by
  have hrun : Sql.step s (.delete id) t =
      ((lift Fault.error (exec (.markDeleted id (Row.instantText s.now)) t).1).map
          fun n : Nat => decide (0 < n),
        (exec (.markDeleted id (Row.instantText s.now)) t).2) := rfl
  by_cases hdead : ∀ r, withId rs id = some r → r.isLive = false
  · have hnone : ∀ r ∈ rs, r.id = id → r.isLive = false := by
      rintro r hr rfl
      exact hdead r (ho.withId_of_mem hr)
    rw [h.markDeleted_of_none hnone] at hrun
    exact goes_of_eq hrun (Medium.answer_delete_of_dead hdead) h
  · push Not at hdead
    obtain ⟨r, hr, hl⟩ := hdead
    rw [ne_eq, Bool.not_eq_false] at hl
    obtain ⟨hm, rfl⟩ := withId_eq_some hr
    have hv := hroom r hm rfl
    have hmax : ¬ maxVersion ≤ r.version := by
      unfold maxVersion
      omega
    obtain ⟨t', ht, hkeeps⟩ := h.markDeleted ho hm hl s.now hv
    rw [ht] at hrun
    exact goes_of_eq hrun (Medium.answer_delete hr hl hmax) hkeeps

/-- A call on a table goes as what is written tells. -/
theorem Keeps.goes (ho : Orderly rs) {op : Operation} (hadm : Medium.table.Admits s rs op) :
    Goes s op t rs := by
  cases op with
  | findByAddress a => exact goes_of_eq (h.run_select (admits_liveAddress a)) rfl h
  | findByName n => exact goes_of_eq (h.run_select (admits_liveName n)) rfl h
  | get id => exact goes_of_eq (h.run_withId id) rfl h
  | list => exact h.goes_list
  | create n => exact h.goes_create hadm
  | update id v p => exact h.goes_update ho id v p
  | touch id u => exact h.goes_touch ho id u
  | delete id => exact h.goes_delete ho id (hadm rfl)

end Sql.Table

/-! ### Of either kind -/

/-- **A store of either kind goes as what is written in it tells.** -/
theorem Backing.Has.step {b : Backing} {m : Medium} (h : b.Has m rs) (ho : Orderly rs)
    {op : Operation} (hadm : m.Admits s rs op) :
    (b.step s op).1 = (m.answer s op rs).1 ∧ (b.step s op).2.Has m (m.answer s op rs).2 := by
  cases h with
  | memory keeps =>
    obtain ⟨ha, hk⟩ := keeps.goes ho hadm
    rw [← keeps.step] at ha hk
    exact ⟨ha, .memory hk⟩
  | table keeps =>
    obtain ⟨ha, hk⟩ := keeps.goes ho hadm
    exact ⟨ha, .table hk⟩

end NodeWatch.Store
