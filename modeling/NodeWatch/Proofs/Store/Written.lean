import NodeWatch.Proofs.Store.Sql.Statement

/-!
A store as the list of the records that were written to it, whether they can be read or not.

A call tells of what was written and makes one of few changes: it adds a record, revises, touches
or deletes one, or does nothing. What calls keep is read off these changes.
-/

namespace NodeWatch.Store

namespace Medium

/-- What is told of a record that was written. In a table it may be that it cannot be read. -/
def tell : Medium → Record → Except Error Record
  | memory _, r => .ok r
  | table, r => (Sql.Row.ofRecord r).record

/-- What is told of a record that was looked for. -/
def tell? (m : Medium) : Option Record → Except Error (Option Record)
  | none => .ok none
  | some r => (m.tell r).map some

/-- The answer to a call, and what is written after it. -/
def answer (m : Medium) (s : Stamp) (op : Operation) (rs : List Record) :
    op.Answer × List Record :=
  match op with
  | .findByAddress a => (m.tell? (liveAt rs a), rs)
  | .findByName n => (m.tell? (rs.find? fun r => r.isLive && r.name = n), rs)
  | .get id => (m.tell? (withId rs id), rs)
  | .list => ((sortByName (rs.filter (·.isLive))).mapM m.tell, rs)
  | .create n =>
    match m.clash? rs (n.toRecord s) with
    | some u => (.error (Ledger.clashError (n.toRecord s) u), rs)
    | none => (.ok (n.toRecord s), rs ++ [n.toRecord s])
  | .update id expected p =>
    match m.tell? (withId rs id) with
    | .error e => (.error e, rs)
    | .ok none => (.error (.notFound id), rs)
    | .ok (some r) =>
      if r.version ≠ expected then (.error (.conflict id expected r.version), rs)
      else if maxVersion ≤ r.version then (.error .versionOverflow, rs)
      else
        match m.clash? rs (r.revised s.now p) with
        | some u => (.error (Ledger.clashError (r.revised s.now p) u), rs)
        | none => (.ok (r.revised s.now p), amend id (fun _ => r.revised s.now p) rs)
  | .touch id t =>
    match m.tell? (withId rs id) with
    | .error e => (.error e, rs)
    | .ok none => (.error (.notFound id), rs)
    | .ok (some _) => (.ok (), amend id (Record.touched t) rs)
  | .delete id =>
    match withId rs id with
    | none => (.ok false, rs)
    | some r =>
      if r.isLive then
        if maxVersion ≤ r.version then (.error .versionOverflow, rs)
        else (.ok true, amend id (fun _ => r.deleted s.now) rs)
      else (.ok false, rs)

/-- The call can be made as it is meant: the identity of a new record is new, and a table has room
for one more version of a record that is deleted. -/
def Admits (m : Medium) (s : Stamp) (rs : List Record) : Operation → Prop
  | .create _ => ∀ r ∈ rs, r.id ≠ s.id
  | .delete id => m = .table → ∀ r ∈ rs, r.id = id → r.version + 1 < 2 ^ 63
  | .findByAddress _ | .findByName _ | .update .. | .touch .. | .get _ | .list => True

end Medium

/-! ### What is told -/

namespace Sql.Row

/-- Only an instant with a plain year is read back. -/
lemma instantOf_eq_ok {t u : Time.Instant} (h : instantOf (instantText t) = .ok u) :
    t.HasPlainYear := by
  rw [instantOf, instantText, String.toList_ofList] at h
  cases hread : Time.Instant.read t.offsetText with
  | error f => rw [hread] at h; cases h
  | ok v => exact Time.Instant.hasPlainYear_of_read hread

lemma exists_of_bind {α β : Type} {x : Except Error α} {f : α → Except Error β} {b : β}
    (h : x >>= f = .ok b) : ∃ a, x = .ok a ∧ f a = .ok b := by
  cases x with
  | error e => cases h
  | ok a => exact ⟨a, rfl, h⟩

/-- A record can be read only if all its times can be. -/
lemma record_eq_ok {o r : Record} (h : (ofRecord o).record = .ok r) :
    o.Readable ∧ r = o.asRead := by
  have hread : o.Readable := by
    rw [record_eq_bind] at h
    obtain ⟨seen, hseen, h⟩ := exists_of_bind h
    obtain ⟨created, hcreated, h⟩ := exists_of_bind h
    obtain ⟨updated, hupdated, h⟩ := exists_of_bind h
    obtain ⟨deleted, hdeleted, _⟩ := exists_of_bind h
    refine ⟨instantOf_eq_ok hseen, instantOf_eq_ok hcreated, instantOf_eq_ok hupdated, ?_⟩
    intro t ht
    rw [ht, Option.map_some, Option.mapM_some] at hdeleted
    cases hu : instantOf (instantText t) with
    | error e => rw [hu] at hdeleted; cases hdeleted
    | ok u => exact instantOf_eq_ok hu
  exact ⟨hread, Except.ok.inj (h.symm.trans (record_ofRecord hread))⟩

end Sql.Row

namespace Medium

variable {m : Medium} {r told : Record}

/-- What is told is what is read of the record. -/
lemma tell_eq_ok (h : m.tell r = .ok told) : told = m.read r := by
  cases m with
  | memory _ => exact (Except.ok.inj h).symm
  | table => exact (Sql.Row.record_eq_ok h).2

/-- A version that has room in a table is read as it was written. -/
lemma read_version (h : m = .table → r.version < 2 ^ 63) : (m.read r).version = r.version := by
  cases m with
  | memory _ => rfl
  | table => exact Sql.asRead_version (h rfl)

lemma tell_id (h : m.tell r = .ok told) : told.id = r.id := by
  rw [tell_eq_ok h, read_id]

/-- A record that is revised as it was told keeps its key with its name. -/
lemma key_revised (h : m.tell r = .ok told) (now : Time.Instant) {p : Patch} (hp : p.name = none) :
    (told.revised now p).key = r.key := by
  rw [keepsKey_revised now hp, tell_eq_ok h, read_key]

lemma keeps_createdAt (h : m.tell r = .ok told) : m.Keeps told.createdAt := by
  rw [tell_eq_ok h, read_createdAt]
  cases m with
  | memory _ => exact trivial
  | table => exact (Sql.Row.record_eq_ok h).1.createdAt

lemma tell_of_readable (h : m = .table → r.Readable) : m.tell r = .ok (m.read r) := by
  cases m with
  | memory _ => rfl
  | table => exact Sql.Row.record_ofRecord (h rfl)

end Medium

/-! ### How calls are answered -/

namespace Medium

variable {m : Medium} {s : Stamp} {rs : List Record} {r told : Record} {id : String} {v : Nat}
  {p : Patch} {u : Time.Instant} {e : Error}

@[simp] lemma tell?_none : m.tell? none = .ok none := rfl

lemma tell?_error (h : m.tell r = .error e) : m.tell? (some r) = .error e := by
  rw [tell?, h]
  rfl

lemma tell?_ok (h : m.tell r = .ok told) : m.tell? (some r) = .ok (some told) := by
  rw [tell?, h]
  rfl

lemma answer_update_of_none (h : withId rs id = none) :
    m.answer s (.update id v p) rs = (.error (.notFound id), rs) := by
  simp only [answer, h, tell?_none]

lemma answer_touch_of_none (h : withId rs id = none) :
    m.answer s (.touch id u) rs = (.error (.notFound id), rs) := by
  simp only [answer, h, tell?_none]

lemma answer_delete_of_dead (h : ∀ r, withId rs id = some r → r.isLive = false) :
    m.answer s (.delete id) rs = (.ok false, rs) := by
  simp only [answer]
  split
  next => rfl
  next r hr => simp [h r hr]

section

variable (h : withId rs id = some r)
include h

lemma answer_update_of_error (he : m.tell r = .error e) :
    m.answer s (.update id v p) rs = (.error e, rs) := by
  simp only [answer, h, tell?_error he]

lemma answer_touch_of_error (he : m.tell r = .error e) :
    m.answer s (.touch id u) rs = (.error e, rs) := by
  simp only [answer, h, tell?_error he]

lemma answer_touch (ht : m.tell r = .ok told) :
    m.answer s (.touch id u) rs = (.ok (), amend id (Record.touched u) rs) := by
  simp only [answer, h, tell?_ok ht]

lemma answer_update_conflict (ht : m.tell r = .ok told) (hv : told.version ≠ v) :
    m.answer s (.update id v p) rs = (.error (.conflict id v told.version), rs) := by
  simp only [answer, h, tell?_ok ht]
  rw [if_pos hv]

lemma answer_update_overflow (ht : m.tell r = .ok told) (hmax : maxVersion ≤ told.version) :
    m.answer s (.update id told.version p) rs = (.error .versionOverflow, rs) := by
  simp only [answer, h, tell?_ok ht]
  rw [if_neg (by simp), if_pos hmax]

section

variable (ht : m.tell r = .ok told) (hmax : ¬ maxVersion ≤ told.version)
include ht hmax

lemma answer_update_clash {c : Unique} (hc : m.clash? rs (told.revised s.now p) = some c) :
    m.answer s (.update id told.version p) rs =
      (.error (Ledger.clashError (told.revised s.now p) c), rs) := by
  simp only [answer, h, tell?_ok ht]
  rw [if_neg (by simp), if_neg hmax]
  simp only [hc]

lemma answer_update_free (hc : m.clash? rs (told.revised s.now p) = none) :
    m.answer s (.update id told.version p) rs =
      (.ok (told.revised s.now p), amend id (fun _ => told.revised s.now p) rs) := by
  simp only [answer, h, tell?_ok ht]
  rw [if_neg (by simp), if_neg hmax]
  simp only [hc]

end

lemma answer_delete (hl : r.isLive = true) (hmax : ¬ maxVersion ≤ r.version) :
    m.answer s (.delete id) rs = (.ok true, amend id (fun _ => r.deleted s.now) rs) := by
  simp only [answer, h, hl, if_true]
  rw [if_neg hmax]

lemma answer_delete_overflow (hl : r.isLive = true) (hmax : maxVersion ≤ r.version) :
    m.answer s (.delete id) rs = (.error .versionOverflow, rs) := by
  simp only [answer, h, hl, if_true]
  rw [if_pos hmax]

end

lemma answer_create_clash {n : NewRecord} {c : Unique}
    (hc : m.clash? rs (n.toRecord s) = some c) :
    m.answer s (.create n) rs = (.error (Ledger.clashError (n.toRecord s) c), rs) := by
  simp only [answer, hc]

lemma answer_create_free {n : NewRecord} (hc : m.clash? rs (n.toRecord s) = none) :
    m.answer s (.create n) rs = (.ok (n.toRecord s), rs ++ [n.toRecord s]) := by
  simp only [answer, hc]

end Medium

/-! ### What calls make of what is written -/

/-- By its answer the call has made some change. -/
def Operation.Changes : (op : Operation) → op.Answer → Prop
  | .create _, .ok _ | .update .., .ok _ | .touch .., .ok _ => True
  | .delete _, .ok b => b = true
  | _, _ => False

/-- By its answer the call has written a new version of the record of an identity. -/
def Operation.Writes : (op : Operation) → op.Answer → String → Prop
  | .update id _ _, .ok _, id' => id = id'
  | .delete id, .ok b, id' => b = true ∧ id = id'
  | _, _, _ => False

/-- By its answer the call has added a record. -/
def Operation.Adds : (op : Operation) → op.Answer → Record → Prop
  | .create _, .ok r, r' => r' = r
  | _, _, _ => False

lemma Operation.not_changes_error (op : Operation) (e : Error) :
    ¬ op.Changes (.error e : op.Answer) := by
  cases op <;> exact id

lemma Operation.changes_of_writes (op : Operation) {a : op.Answer} {id : String}
    (h : op.Writes a id) : op.Changes a := by
  cases op with
  | update i v p => cases a with
    | error e => exact h.elim
    | ok r => exact trivial
  | delete i => cases a with
    | error e => exact h.elim
    | ok b => exact h.1
  | _ => exact h.elim

lemma Operation.changes_of_adds (op : Operation) {a : op.Answer} {r : Record}
    (h : op.Adds a r) : op.Changes a := by
  cases op with
  | create n => cases a with
    | error e => exact h.elim
    | ok r' => exact trivial
  | _ => exact h.elim

/-- What a call with its answer makes of the records. -/
inductive Medium.Makes (m : Medium) (s : Stamp) (rs : List Record) :
    (op : Operation) → op.Answer → List Record → Prop where
  | nothing {op : Operation} {a : op.Answer} (idle : ¬ op.Changes a) : Makes m s rs op a rs
  | adds {n : NewRecord} (free : m.clash? rs (n.toRecord s) = none) :
    Makes m s rs (.create n) (.ok (n.toRecord s)) (rs ++ [n.toRecord s])
  | revises {id : String} {p : Patch} {r told : Record} (found : withId rs id = some r)
    (reads : m.tell r = .ok told) (free : m.clash? rs (told.revised s.now p) = none) :
    Makes m s rs (.update id told.version p) (.ok (told.revised s.now p))
      (amend id (fun _ => told.revised s.now p) rs)
  | touches {id : String} {t : Time.Instant} {r : Record} (found : withId rs id = some r) :
    Makes m s rs (.touch id t) (.ok ()) (amend id (Record.touched t) rs)
  | deletes {id : String} {r : Record} (found : withId rs id = some r) (live : r.isLive = true) :
    Makes m s rs (.delete id) (.ok true) (amend id (fun _ => r.deleted s.now) rs)

namespace Medium

variable {m : Medium} {s : Stamp} {rs : List Record} {r : Record} {id : String}

lemma tell?_eq_ok_none {o : Option Record} (h : m.tell? o = .ok none) : o = none := by
  cases o with
  | none => rfl
  | some r =>
    rw [tell?] at h
    cases ht : m.tell r <;> rw [ht] at h <;> cases h

lemma tell?_eq_ok_some {o : Option Record} {told : Record} (h : m.tell? o = .ok (some told)) :
    ∃ r, o = some r ∧ m.tell r = .ok told := by
  cases o with
  | none => cases h
  | some r =>
    refine ⟨r, rfl, ?_⟩
    cases ht : m.tell r with
    | error e => rw [tell?, ht] at h; cases h
    | ok x =>
      rw [tell?, ht] at h
      rw [Option.some.inj (Except.ok.inj h)]

theorem makes_answer (m : Medium) (s : Stamp) (op : Operation) (rs : List Record) :
    m.Makes s rs op (m.answer s op rs).1 (m.answer s op rs).2 := by
  cases op with
  | findByAddress a => exact .nothing id
  | findByName n => exact .nothing id
  | get i => exact .nothing id
  | list => exact .nothing id
  | create n =>
    simp only [answer]
    split
    next => exact .nothing id
    next hfree => exact .adds hfree
  | update i v p =>
    simp only [answer]
    split
    next => exact .nothing id
    next => exact .nothing id
    next told htold =>
      obtain ⟨r, hr, hreads⟩ := tell?_eq_ok_some htold
      split
      next => exact .nothing id
      next hv =>
        obtain rfl := not_not.mp hv
        split
        next => exact .nothing id
        next =>
          split
          next => exact .nothing id
          next hfree => exact .revises hr hreads hfree
  | touch i t =>
    simp only [answer]
    split
    next => exact .nothing id
    next => exact .nothing id
    next told htold =>
      obtain ⟨r, hr, -⟩ := tell?_eq_ok_some htold
      exact .touches hr
  | delete i =>
    simp only [answer]
    split
    next => exact .nothing (by simp [Operation.Changes])
    next r hr =>
      split
      next hl =>
        split
        next => exact .nothing id
        next => exact .deletes hr hl
      next => exact .nothing (by simp [Operation.Changes])

end Medium

/-! ### What calls keep -/

/-- What becomes of a record with a call, which may have written a new version of it. -/
structure Record.Grows (wrote : Prop) (r r' : Record) : Prop where
  id : r'.id = r.id
  address : r'.address = r.address
  createdAt : r'.createdAt = r.createdAt
  dead : r.isLive = false → r'.isLive = false
  lastSeen : r.lastSeen ≤ r'.lastSeen
  version : wrote → r'.version = r.version + 1
  seen : ¬ wrote → ∃ t, r' = { r with lastSeen := t }

section

variable {wrote : Prop} {r : Record}

lemma Record.Grows.version_le {r' : Record} (h : r.Grows wrote r') :
    r'.version ≤ r.version + 1 := by
  by_cases hw : wrote
  · exact Nat.le_of_eq (h.version hw)
  · obtain ⟨t, rfl⟩ := h.seen hw
    exact Nat.le_succ _

lemma Record.Grows.stays (h : ¬ wrote) : r.Grows wrote r :=
  ⟨rfl, rfl, rfl, fun hd => hd, Time.Instant.le_refl _, fun hw => absurd hw h, fun _ => ⟨_, rfl⟩⟩

lemma Record.Grows.touched (h : ¬ wrote) (t : Time.Instant) : r.Grows wrote (r.touched t) :=
  ⟨rfl, rfl, rfl, fun hd => hd, Time.Instant.le_latest_left _ _, fun hw => absurd hw h,
    fun _ => ⟨_, rfl⟩⟩

lemma Record.Grows.deleted (h : wrote) (now : Time.Instant) : r.Grows wrote (r.deleted now) :=
  ⟨rfl, rfl, rfl, fun _ => rfl, Time.Instant.le_refl _, fun _ => rfl, fun hw => absurd h hw⟩

/-- A record is revised as it is read. -/
lemma Record.Grows.revised (h : wrote) {m : Medium} (hsmall : m = .table → r.version < 2 ^ 63)
    (now : Time.Instant) (p : Patch) : r.Grows wrote ((m.read r).revised now p) := by
  have hversion := Medium.read_version hsmall
  refine ⟨?_, ?_, ?_, fun hd => ?_, ?_, fun _ => ?_, fun hw => absurd h hw⟩
  · exact m.read_id r
  · exact m.read_address r
  · exact m.read_createdAt r
  · exact (m.read_isLive r).trans hd
  · rw [← m.read_lastSeen r]
    exact (m.read r).lastSeen_le_revised now p
  · exact congrArg (· + 1) hversion

end

namespace Medium.Makes

variable {m : Medium} {s : Stamp} {rs rs' : List Record} {op : Operation} {a : op.Answer}
  (h : m.Makes s rs op a rs')
include h

lemma orderly (ho : Orderly rs) (hadm : m.Admits s rs op) : Orderly rs' := by
  cases h with
  | nothing idle => exact ho
  | adds free =>
    exact ho.append hadm fun _ => Medium.not_taken_of_clash?_eq_none rfl hadm free
  | @revises id p r told found reads free =>
    obtain ⟨-, rfl⟩ := withId_eq_some found
    have hid := Medium.tell_id reads
    refine ho.replace hid fun hl x hx hxl hne => ?_
    exact Medium.free_of_clash?_eq_none (.inr hl) free x hx hxl (by rwa [← hid] at hne)
  | touches found => exact ho.amend (keepsKey_touched _) _
  | @deletes id r found live =>
    obtain ⟨hr, rfl⟩ := withId_eq_some found
    exact ho.replace rfl fun hl => absurd hl (by simp [Record.deleted, Record.isLive])

/-- A call that has changed nothing by its answer has changed nothing. -/
lemma unchanged (hidle : ¬ op.Changes a) : rs' = rs := by
  cases h with
  | nothing idle => rfl
  | adds free => exact absurd trivial hidle
  | revises found reads free => exact absurd trivial hidle
  | touches found => exact absurd trivial hidle
  | deletes found live => exact absurd rfl hidle

/-- Every record is kept, and has a new version if the call has written one. -/
lemma kept (ho : Orderly rs) (hsmall : m = .table → ∀ r ∈ rs, r.version < 2 ^ 63) :
    ∀ r ∈ rs, ∃ r' ∈ rs', r.Grows (op.Writes a r.id) r' := by
  have hstays : ∀ {id : String} {f : Record → Record} {r : Record}, r ∈ rs → r.id ≠ id →
      r ∈ amend id f rs := fun hr hne => mem_amend.mpr ⟨_, hr, by rw [if_neg hne]⟩
  have hamended : ∀ {id : String} {f : Record → Record} {r : Record}, r ∈ rs → r.id = id →
      f r ∈ amend id f rs := fun hr he => mem_amend.mpr ⟨_, hr, by rw [if_pos he]⟩
  intro r hr
  cases h with
  | nothing idle =>
    exact ⟨r, hr, .stays fun hw => idle (op.changes_of_writes hw)⟩
  | adds free => exact ⟨r, List.mem_append_left _ hr, .stays fun hw => hw⟩
  | @revises id p x told found reads free =>
    obtain ⟨hx, rfl⟩ := withId_eq_some found
    obtain rfl := Medium.tell_eq_ok reads
    by_cases he : r.id = x.id
    · obtain rfl := ho.eq_of_id hr hx he
      exact ⟨_, hamended hr rfl, .revised rfl (fun hm => hsmall hm r hr) s.now p⟩
    · exact ⟨r, hstays hr he, .stays fun hw => he (Eq.symm hw)⟩
  | @touches id t x found =>
    by_cases he : r.id = id
    · exact ⟨_, hamended hr he, .touched (fun hw => hw) t⟩
    · exact ⟨r, hstays hr he, .stays fun hw => hw⟩
  | @deletes id x found live =>
    obtain ⟨hx, rfl⟩ := withId_eq_some found
    by_cases he : r.id = x.id
    · obtain rfl := ho.eq_of_id hr hx he
      exact ⟨_, hamended hr he, .deleted ⟨rfl, rfl⟩ s.now⟩
    · exact ⟨r, hstays hr he, .stays fun hw => he hw.2.symm⟩

/-- A record that was not there before is the one that was added. -/
lemma made : ∀ r' ∈ rs', (∃ r ∈ rs, r.id = r'.id) ∨
    op.Adds a r' ∧ ∃ n, op = .create n ∧ r' = n.toRecord s := by
  have hamended : ∀ {id : String} {f : Record → Record} {r' : Record},
      (∀ r ∈ rs, r.id = id → (f r).id = id) → r' ∈ amend id f rs → ∃ r ∈ rs, r.id = r'.id := by
    intro id f r' hf hr'
    obtain ⟨r, hr, rfl⟩ := mem_amend.mp hr'
    refine ⟨r, hr, ?_⟩
    split
    next he => rw [hf r hr he, he]
    next => rfl
  intro r' hr'
  cases h with
  | nothing idle => exact .inl ⟨r', hr', rfl⟩
  | @adds n free =>
    rcases List.mem_append.mp hr' with hr' | hr'
    · exact .inl ⟨r', hr', rfl⟩
    · obtain rfl := List.mem_singleton.mp hr'
      exact .inr ⟨rfl, n, rfl, rfl⟩
  | @revises id p x told found reads free =>
    refine .inl (hamended (fun r hr he => ?_) hr')
    rw [Medium.tell_eq_ok reads]
    exact (m.read_id x).trans (withId_eq_some found).2
  | touches found =>
    exact .inl (hamended (f := Record.touched _) (fun r hr he => he) hr')
  | @deletes id x found live =>
    exact .inl (hamended (f := fun _ => x.deleted s.now)
      (fun r hr he => (withId_eq_some found).2) hr')

/-- Every record has grown out of one that was there before, or was added. -/
lemma comes (ho : Orderly rs) (hadm : m.Admits s rs op)
    (hsmall : m = .table → ∀ r ∈ rs, r.version < 2 ^ 63) :
    ∀ r' ∈ rs', (∃ r ∈ rs, r.Grows (op.Writes a r.id) r') ∨
      op.Adds a r' ∧ ∃ n, op = .create n ∧ r' = n.toRecord s := by
  intro r' hr'
  refine (h.made r' hr').imp_left ?_
  rintro ⟨r, hr, hid⟩
  obtain ⟨r'', hr'', hgrows⟩ := h.kept ho hsmall r hr
  obtain rfl := (h.orderly ho hadm).eq_of_id hr'' hr' (hgrows.id.trans hid)
  exact ⟨r, hr, hgrows⟩

/-- A record that is told of as added is there afterwards. -/
lemma added {r : Record} (hadds : op.Adds a r) : r ∈ rs' := by
  cases h with
  | nothing idle => exact absurd (op.changes_of_adds hadds) idle
  | adds free =>
    obtain rfl : r = _ := hadds
    exact List.mem_append_right _ (List.mem_singleton.mpr rfl)
  | revises found reads free => exact hadds.elim
  | touches found => exact hadds.elim
  | deletes found live => exact hadds.elim

/-- A record of which a new version was written was there before. -/
lemma found {id : String} (hwrites : op.Writes a id) : ∃ r ∈ rs, r.id = id := by
  cases h with
  | nothing idle => exact absurd (op.changes_of_writes hwrites) idle
  | adds free => exact hwrites.elim
  | revises found reads free =>
    obtain rfl : _ = id := hwrites
    obtain ⟨hr, hid⟩ := withId_eq_some found
    exact ⟨_, hr, hid⟩
  | touches found => exact hwrites.elim
  | deletes found live =>
    obtain rfl : _ = id := hwrites.2
    obtain ⟨hr, hid⟩ := withId_eq_some found
    exact ⟨_, hr, hid⟩

end Medium.Makes

/-- An update that does not fail has found the record that it tells of, at the version that it
expects. -/
lemma Medium.Makes.revised {m : Medium} {s : Stamp} {rs rs' : List Record} {id : String} {v : Nat}
    {p : Patch} {new : Record} (h : m.Makes s rs (.update id v p) (.ok new) rs') :
    ∃ r told, withId rs id = some r ∧ m.tell r = .ok told ∧ told.version = v ∧
      new = told.revised s.now p := by
  cases h with
  | nothing idle => exact absurd trivial idle
  | revises found reads free => exact ⟨_, _, found, reads, rfl, rfl⟩

end NodeWatch.Store
