import NodeWatch.Proofs.Store.History

/-!
What is told of a record that was reported as written.

A store in memory tells it as it is. So does a table, but for two things: a number that needs all of
64 bits is told as zero, and a record with a time outside the years 0 to 9999 is not told at all.
Then every call that looks it up fails, and so does every listing as long as it is live.
-/

namespace NodeWatch.Store

/-- The record that a call reports as written. -/
def Operation.Reports : (op : Operation) → op.Answer → Record → Prop
  | .create _, .ok r, r' => r' = r
  | .update .., .ok r, r' => r' = r
  | _, _, _ => False

/-- The call is not to change the record of an identity. -/
def Operation.Spares (id : String) : Operation → Prop
  | .update i _ _ | .touch i _ | .delete i => i ≠ id
  | .findByAddress _ | .findByName _ | .create _ | .get _ | .list => True

/-! ### Rows -/

namespace Sql

/-- A number that needs all of 64 bits is read as zero. -/
lemma signed_of_le {n : Nat} (h : 2 ^ 63 ≤ n) (hn : n < 2 ^ 64) : (signed n).toNat = 0 := by
  unfold signed
  rw [Int.bmod_def]
  split <;> omega

namespace Row

/-- It fails only for a text that is no time. -/
def FailsByTime {α : Type} (x : Except Error α) : Prop :=
  ∀ e, x = .error e → ∃ s f, e = .corrupt (.instant s f)

lemma FailsByTime.instantOf (s : String) : FailsByTime (instantOf s) := by
  intro e h
  unfold Row.instantOf at h
  split at h
  · cases h
  next f _ => exact ⟨s, f, (Except.error.inj h).symm⟩

lemma FailsByTime.pure {α : Type} (a : α) : FailsByTime (pure a : Except Error α) :=
  fun _ h => by cases h

lemma FailsByTime.bind {α β : Type} {x : Except Error α} {f : α → Except Error β}
    (hx : FailsByTime x) (hf : ∀ a, FailsByTime (f a)) : FailsByTime (x >>= f) := by
  intro e h
  cases x with
  | error e' => exact hx e (congrArg _ (Except.error.inj h))
  | ok a => exact hf a e h

/-- A row that cannot be read is corrupt in one of its times. -/
lemma failsByTime_record (o : Record) : FailsByTime (ofRecord o).record := by
  rw [record_eq_bind]
  refine .bind (.instantOf _) fun seen => .bind (.instantOf _) fun created =>
    .bind (.instantOf _) fun updated => .bind ?_ fun deleted => .pure _
  cases o.deletedAt with
  | none => exact .pure none
  | some t =>
    rw [Option.map_some, Option.mapM_some, ← bind_pure_comp]
    exact .bind (.instantOf _) fun u => .pure (some u)

end Row

end Sql

namespace Medium

variable {r : Record}

/-- What a table tells of a record, if it tells of it at all. -/
lemma tell_table (h : r.Readable) (hv : r.version < 2 ^ 63) : table.tell r =
    .ok { r with memoryMb := if r.memoryMb.toNat < 2 ^ 63 then r.memoryMb else 0 } := by
  have hmemory : UInt64.ofNat (Sql.signed r.memoryMb.toNat).toNat =
      if r.memoryMb.toNat < 2 ^ 63 then r.memoryMb else 0 := by
    split
    next hm => rw [Sql.signed_of_lt hm, Int.toNat_natCast, UInt64.ofNat_toNat]
    next hm => rw [Sql.signed_of_le (Nat.le_of_not_lt hm) r.memoryMb.toNat_lt]; rfl
  have hread : r.asRead =
      { r with memoryMb := if r.memoryMb.toNat < 2 ^ 63 then r.memoryMb else 0 } := by
    rw [← hmemory, Record.asRead, Sql.signed_of_lt hv, Int.toNat_natCast]
  rw [← hread]
  exact Sql.Row.record_ofRecord h

lemma tell_table_of_not_readable (h : ¬ r.Readable) :
    ∃ s f, table.tell r = .error (.corrupt (.instant s f)) := by
  cases ht : table.tell r with
  | ok told => exact absurd (Sql.Row.record_eq_ok ht).1 h
  | error e =>
    obtain ⟨s, f, rfl⟩ := Sql.Row.failsByTime_record r e ht
    exact ⟨s, f, rfl⟩

/-- **What a table tells as it was written.** -/
lemma tell_table_eq_iff (hv : r.version < 2 ^ 63) :
    table.tell r = .ok r ↔ r.Readable ∧ r.memoryMb.toNat < 2 ^ 63 := by
  constructor
  · intro h
    have hread := (Sql.Row.record_eq_ok h).1
    refine ⟨hread, ?_⟩
    rw [tell_table hread hv] at h
    have hmemory := congrArg Record.memoryMb (Except.ok.inj h)
    by_contra hm
    simp only [hm, if_false] at hmemory
    rw [← hmemory] at hm
    exact hm (by decide)
  · rintro ⟨hread, hm⟩
    rw [tell_table hread hv, if_pos hm]

end Medium

/-! ### Calls that tell of a record -/

section

variable {α β ε : Type} {f : α → Except ε β} {l : List α}

lemma mem_of_mapM_eq_ok {out : List β} (h : l.mapM f = .ok out) {a : α} (ha : a ∈ l) :
    ∃ b ∈ out, f a = .ok b := by
  induction l generalizing out with
  | nil => simp at ha
  | cons x l ih =>
    rw [List.mapM_cons] at h
    cases hx : f x with
    | error e => rw [hx] at h; cases h
    | ok y =>
      cases hl : l.mapM f with
      | error e => rw [hx, hl] at h; cases h
      | ok ys =>
        rw [hx, hl] at h
        obtain rfl : y :: ys = out := Except.ok.inj h
        rcases List.mem_cons.mp ha with rfl | ha
        · exact ⟨y, by simp, hx⟩
        · obtain ⟨b, hb, hab⟩ := ih hl ha
          exact ⟨b, List.mem_cons_of_mem _ hb, hab⟩

lemma exists_of_mapM_eq_error {e : ε} (h : l.mapM f = .error e) : ∃ a ∈ l, f a = .error e := by
  induction l with
  | nil => cases h
  | cons x l ih =>
    rw [List.mapM_cons] at h
    cases hx : f x with
    | error e' =>
      rw [hx] at h
      obtain rfl : e' = e := Except.error.inj h
      exact ⟨x, by simp, hx⟩
    | ok y =>
      cases hl : l.mapM f with
      | error e' =>
        rw [hx, hl] at h
        obtain rfl : e' = e := Except.error.inj h
        obtain ⟨a, ha, hfa⟩ := ih hl
        exact ⟨a, List.mem_cons_of_mem _ ha, hfa⟩
      | ok ys => rw [hx, hl] at h; cases h

end

/-- The answer to a call when nothing troubles the store. -/
def Backing.ask (b : Backing) (s : Stamp) (op : Operation) : op.Answer :=
  (b.attempt ⟨⟨s, op⟩, {}⟩).1

/-- What a store tells of a record, whichever call looks it up. A listing contains it as it is told;
it fails only if some live record cannot be told. -/
structure Backing.Tells (b : Backing) (s : Stamp) (r : Record) (told : Except Error Record) :
    Prop where
  get : b.ask s (.get r.id) = told.map some
  byAddress : r.isLive = true → b.ask s (.findByAddress r.address) = told.map some
  byName : r.isLive = true → b.ask s (.findByName r.name) = told.map some
  list : r.isLive = true → ∀ rs : List Record, b.ask s .list = .ok rs → ∃ x ∈ rs, told = .ok x
  unlisted : ∀ e, b.ask s .list = .error e → ∃ a, b.ask s (.findByAddress a) = .error e

variable {b : Backing} {m : Medium} {s : Stamp} {rs rs' : List Record} {op : Operation}
  {a : op.Answer} {r : Record} {n : Nat} {used : List String}

lemma Backing.Keeps.ask (h : b.Keeps m n used rs) (op : Operation) (hadm : m.Admits s rs op) :
    b.ask s op = (m.answer s op rs).1 :=
  (h.stores.step h.orderly hadm).1

/-- Whatever is written is told. -/
lemma Backing.Keeps.tells (h : b.Keeps m n used rs) (hr : r ∈ rs) (s : Stamp) :
    b.Tells s r (m.tell r) := by
  have haddress : ∀ x ∈ rs, x.isLive = true →
      b.ask s (.findByAddress x.address) = (m.tell x).map some := fun x hx hl => by
    rw [h.ask (.findByAddress x.address) trivial]
    exact congrArg m.tell? (h.orderly.liveAt_of_mem hx hl rfl)
  have hlisted : ∀ x, x ∈ sortByName (rs.filter (·.isLive)) ↔ x ∈ rs ∧ x.isLive = true :=
    fun x => Sql.Table.mem_sortByName.trans List.mem_filter
  refine ⟨?get, haddress r hr, fun hl => ?byName, fun hl out hout => ?list, fun e he => ?unlisted⟩
  case get =>
    rw [h.ask (.get r.id) trivial]
    exact congrArg m.tell? (h.orderly.withId_of_mem hr)
  case byName =>
    rw [h.ask (.findByName r.name) trivial]
    exact congrArg m.tell? (h.orderly.named_of_mem hr hl)
  case list =>
    rw [h.ask .list trivial] at hout
    exact mem_of_mapM_eq_ok hout ((hlisted r).mpr ⟨hr, hl⟩)
  case unlisted =>
    rw [h.ask .list trivial] at he
    obtain ⟨x, hx, hxe⟩ := exists_of_mapM_eq_error he
    obtain ⟨hxr, hxl⟩ := (hlisted x).mp hx
    exact ⟨x.address, by rw [haddress x hxr hxl, hxe]; rfl⟩

/-! ### From the report on -/

/-- What is reported as written is written. -/
lemma Medium.Makes.reported (h : m.Makes s rs op a rs') (hrep : op.Reports a r) : r ∈ rs' := by
  cases h with
  | nothing idle =>
    cases op with
    | create n => cases a with
      | error e => exact hrep.elim
      | ok r' => exact absurd trivial idle
    | update id v p => cases a with
      | error e => exact hrep.elim
      | ok r' => exact absurd trivial idle
    | _ => exact hrep.elim
  | adds free =>
    obtain rfl := hrep
    exact List.mem_append_right _ (by simp)
  | @revises id p x told found reads free =>
    obtain rfl := hrep
    obtain ⟨hx, rfl⟩ := withId_eq_some found
    exact mem_amend.mpr ⟨x, hx, by rw [if_pos rfl]⟩
  | touches found => exact hrep.elim
  | deletes found live => exact hrep.elim

lemma Medium.Makes.spared (h : m.Makes s rs op a rs') (hr : r ∈ rs) (hs : op.Spares r.id) :
    r ∈ rs' := by
  have hstays : ∀ {id : String} {f : Record → Record}, id ≠ r.id → r ∈ amend id f rs :=
    fun hne => mem_amend.mpr ⟨r, hr, by rw [if_neg (Ne.symm hne)]⟩
  cases h with
  | nothing idle => exact hr
  | adds free => exact List.mem_append_left _ hr
  | revises found reads free => exact hstays hs
  | touches found => exact hstays hs
  | deletes found live => exact hstays hs

lemma Backing.afterAll_append (b : Backing) (calls later : List Attempt) :
    b.afterAll (calls ++ later) = (b.afterAll calls).afterAll later :=
  List.foldl_append

lemma created_append (calls later : List Attempt) :
    created (calls ++ later) = created calls ++ created later :=
  List.filterMap_append

/-- Many calls, and what they spare. -/
lemma Backing.Keeps.later (h : b.Keeps m n used rs) {calls : List Attempt}
    (fresh : (used ++ created calls).Nodup) (room : m = .table → n + calls.length < 2 ^ 63) :
    ∃ rs', (b.afterAll calls).Keeps m (n + calls.length) (used ++ created calls) rs' ∧
      ∀ r ∈ rs, (∀ c ∈ calls, c.op.Spares r.id) → r ∈ rs' := by
  induction calls generalizing b n used rs with
  | nil =>
    rw [created, List.filterMap_nil, List.append_nil]
    exact ⟨rs, h, fun r hr _ => hr⟩
  | cons c calls ih =>
    rw [created_cons, ← List.append_assoc] at fresh
    rw [List.length_cons] at room
    have hnew : ∀ id ∈ c.toRequest.creates?, id ∉ used := fun id hid hmem =>
      (List.nodup_append.mp fresh.of_append_left).2.2 id hmem id (by simpa using hid) rfl
    obtain ⟨rs₁, hmakes, hkeeps⟩ := h.makes hnew fun hm => by have := room hm; omega
    obtain ⟨rs', hlater, hspared⟩ := ih hkeeps fresh fun hm => by have := room hm; omega
    refine ⟨rs', ?_, fun r hr hs => ?_⟩
    · rw [created_cons, ← List.append_assoc, List.length_cons, Nat.add_comm calls.length,
        ← Nat.add_assoc]
      exact hlater
    · exact hspared r (hmakes.spared hr (hs c (by simp))) fun x hx => hs x (by simp [hx])

/-- What was reported as written and spared since then is there. -/
lemma Backing.Has.exists_keeps (h : b.Has m []) (before later : List Attempt) (q : Attempt)
    (fresh : (created (before ++ q :: later)).Nodup)
    (room : m = .table → (before ++ q :: later).length < 2 ^ 63)
    (hrep : q.op.Reports ((b.afterAll before).attempt q).1 r)
    (hspare : ∀ c ∈ later, c.op.Spares r.id) :
    ∃ n used rs, (b.afterAll (before ++ q :: later)).Keeps m n used rs ∧ r ∈ rs ∧
      (m = .table → n < 2 ^ 63) := by
  have hstart : b.Keeps m 0 [] [] := ⟨h.stores, orderly_nil, by simp, by simp⟩
  rw [created_append, created_cons] at fresh
  rw [List.length_append, List.length_cons] at room
  obtain ⟨rs₁, hbefore, -⟩ := hstart.later fresh.of_append_left fun hm => by
    have := room hm; omega
  have hnew : ∀ id ∈ q.toRequest.creates?, id ∉ [] ++ created before := fun id hid hmem =>
    (List.nodup_append.mp fresh).2.2 id hmem id (by simp at hid; simp [hid]) rfl
  obtain ⟨rs₂, hmakes, hreport⟩ := hbefore.makes hnew fun hm => by have := room hm; omega
  rw [← List.append_assoc] at fresh
  obtain ⟨rs₃, hlater, hspared⟩ := hreport.later fresh fun hm => by have := room hm; omega
  rw [Backing.afterAll_append]
  exact ⟨_, _, rs₃, hlater, hspared r (hmakes.reported hrep) hspare,
    fun hm => by have := room hm; omega⟩

/-- **What is read back of a record that was written.** A table that was empty in the beginning has
reported a record as written, by a create or an update, and no call after that was to change it.
Then every call that looks it up tells the same of it, and so does a listing, unless another record
makes it fail. It is the record itself, in all its fields, if and only if its times have years from
0 to 9999 and its memory is a number of 63 bits. A memory that needs all of 64 bits is told as zero,
and of a record with any other time nothing is told but that this time is corrupt. -/
theorem tells_iff_readable (h : b.Has .table []) (before later : List Attempt) (q : Attempt)
    (fresh : (created (before ++ q :: later)).Nodup)
    (room : (before ++ q :: later).length < 2 ^ 63)
    (hrep : q.op.Reports ((b.afterAll before).attempt q).1 r)
    (hspare : ∀ c ∈ later, c.op.Spares r.id) (s : Stamp) :
    (b.afterAll (before ++ q :: later)).Tells s r (Medium.table.tell r) ∧
    (Medium.table.tell r = .ok r ↔ r.Readable ∧ r.memoryMb.toNat < 2 ^ 63) ∧
    (r.Readable → Medium.table.tell r =
      .ok { r with memoryMb := if r.memoryMb.toNat < 2 ^ 63 then r.memoryMb else 0 }) ∧
    (¬ r.Readable → ∃ text f, Medium.table.tell r = .error (.corrupt (.instant text f))) := by
  obtain ⟨n, used, rs, hkeeps, hr, hn⟩ :=
    h.exists_keeps before later q fresh (fun _ => room) hrep hspare
  have hv : r.version < 2 ^ 63 := hkeeps.small hn rfl r hr
  exact ⟨hkeeps.tells hr s, Medium.tell_table_eq_iff hv, fun hread => Medium.tell_table hread hv,
    Medium.tell_table_of_not_readable⟩

/-- A node with a memory, seen at a time. -/
def measured (name : String) (host : UInt8) (memory : UInt64) (seen : Time.Instant) : NewRecord :=
  { name, address := .v4 10 0 0 host, memoryMb := memory, lastSeen := seen }

lemma has_inTable : (Repository.inTable true).backing.Has .table [] := .table ⟨rfl, rfl, rfl, rfl⟩

/-- A node is put on record; then another one is, and is seen once more. -/
theorem tells_iff_readable_for_node :
    ∃ (b : Backing) (r : Record) (q : Attempt) (later : List Attempt), b.Has .table [] ∧
      q.op.Reports (b.attempt q).1 r ∧ r.memoryMb = 8192 ∧ later.length = 2 ∧
      (b.afterAll (q :: later)).ask ⟨"", default⟩ (.get "a") = .ok (some r) := by
  let q : Attempt := { stamp := ⟨"a", default⟩, op := .create (measured "pi" 1 8192 default) }
  let r := (measured "pi" 1 8192 default).toRecord q.stamp
  let later : List Attempt :=
    [{ stamp := ⟨"b", default⟩, op := .create (measured "nas" 2 16384 default) },
     { stamp := ⟨"", default⟩, op := .touch "b" (.ofSeconds 60) }]
  have hrep : q.op.Reports ((Repository.inTable true).backing.attempt q).1 r := rfl
  have hspare : ∀ c ∈ later, c.op.Spares "a" := by simp [later, Operation.Spares]
  obtain ⟨htells, hiff, -, -⟩ := tells_iff_readable has_inTable [] later q (by decide) (by decide)
    hrep hspare ⟨"", default⟩
  have hplain : (default : Time.Instant).HasPlainYear := by decide
  have htold := hiff.mpr ⟨⟨hplain, hplain, hplain, fun t ht => by cases ht⟩, by decide⟩
  rw [htold] at htells
  exact ⟨_, r, q, later, has_inTable, hrep, rfl, rfl, htells.get⟩

/-- **Not all that is written is read back.** A record with a memory of 64 bits is reported as it
was given and told with none; one that was last seen in the year 10000 is reported as written and
then makes every call fail that tells of it, all listings among them. -/
theorem not_read_back :
    ∃ (b : Backing) (p q : Attempt) (r x : Record), b.Has .table [] ∧
      p.op.Reports (b.attempt p).1 r ∧ r.memoryMb = 9223372036854775808 ∧
      (b.afterAll [p]).ask ⟨"", default⟩ (.get r.id) = .ok (some { r with memoryMb := 0 }) ∧
      q.op.Reports ((b.afterAll [p]).attempt q).1 x ∧ x.lastSeen = .ofSeconds 253402300800 ∧
      let e : Error := .corrupt (.instant "+10000-01-01T00:00:00+00:00" .invalid)
      (b.afterAll [p, q]).ask ⟨"", default⟩ (.get x.id) = .error e ∧
      (b.afterAll [p, q]).ask ⟨"", default⟩ (.findByAddress x.address) = .error e ∧
      (b.afterAll [p, q]).ask ⟨"", default⟩ (.findByName x.name) = .error e ∧
      ∀ rs : List Record, (b.afterAll [p, q]).ask ⟨"", default⟩ .list ≠ .ok rs := by
  let b := (Repository.inTable true).backing
  let big := measured "big" 1 9223372036854775808 default
  let late := measured "late" 2 0 (.ofSeconds 253402300800)
  let p : Attempt := { stamp := ⟨"a", default⟩, op := .create big }
  let q : Attempt := { stamp := ⟨"b", default⟩, op := .create late }
  let r := big.toRecord p.stamp
  let x := late.toRecord q.stamp
  have hr : p.op.Reports (b.attempt p).1 r := rfl
  have hx : q.op.Reports ((b.afterAll [p]).attempt q).1 x := rfl
  obtain ⟨_, _, _, hkeeps, hmem, -⟩ :=
    has_inTable.exists_keeps [] [] p (by decide) (fun _ => by decide) hr (by simp)
  obtain ⟨_, _, _, hkeeps', hmem', -⟩ :=
    has_inTable.exists_keeps [p] [] q (by decide) (fun _ => by decide) hx (by simp)
  have htells := hkeeps.tells hmem ⟨"", default⟩
  have htells' := hkeeps'.tells hmem' ⟨"", default⟩
  have htold : Medium.table.tell r = .ok { r with memoryMb := 0 } := by decide +kernel
  have htold' : Medium.table.tell x =
      .error (.corrupt (.instant "+10000-01-01T00:00:00+00:00" .invalid)) := by decide +kernel
  rw [htold] at htells
  rw [htold'] at htells'
  refine ⟨b, p, q, r, x, has_inTable, hr, rfl, htells.get, hx, rfl, htells'.get,
    htells'.byAddress rfl, htells'.byName rfl, fun rs hlist => ?_⟩
  obtain ⟨_, -, hno⟩ := htells'.list rfl rs hlist
  cases hno

end NodeWatch.Store
