import Mathlib.Data.List.Forall2
import NodeWatch.Proofs.Store.Memory
import NodeWatch.Proofs.Store.Sql.Statement

/-!
A store in memory and a table beside each other, with the same calls made on both.

They keep the same live records. What they do not agree on is a deleted record that has the address
of a live one or is to get its name: the store in memory refuses to update it, the table does not.
From then on that record may differ in the two stores. One lemma for each call says what it makes
of the two stores and how its answers compare.
-/

namespace NodeWatch.Store

/-! ### Lists of records that are the same but for some deleted ones -/

/-- The same record, or what the two stores have made of a deleted one on which they differ. -/
def Parted (apart : String → Prop) (r o : Record) : Prop :=
  r = o ∨ apart r.id ∧ r.id = o.id ∧ r.isLive = false ∧ o.isLive = false

abbrev Paired (apart : String → Prop) (rs os : List Record) : Prop :=
  List.Forall₂ (Parted apart) rs os

section

variable {apart apart' : String → Prop} {rs os : List Record} {r o : Record} {id : String}

lemma Parted.refl (r : Record) : Parted apart r r := .inl rfl

lemma Parted.id_eq (h : Parted apart r o) : r.id = o.id := by
  rcases h with rfl | ⟨-, hid, -, -⟩
  · rfl
  · exact hid

lemma Parted.isLive_eq (h : Parted apart r o) : r.isLive = o.isLive := by
  rcases h with rfl | ⟨-, -, hr, ho⟩
  · rfl
  · rw [hr, ho]

lemma Parted.eq_of_live (h : Parted apart r o) (hl : o.isLive = true) : r = o := by
  rcases h with rfl | ⟨-, -, -, ho⟩
  · rfl
  · simp [hl] at ho

lemma Parted.mono (h : Parted apart r o) (hle : ∀ id, apart id → apart' id) : Parted apart' r o :=
  h.imp_right fun h => ⟨hle _ h.1, h.2⟩

lemma Paired.mono (h : Paired apart rs os) (hle : ∀ id, apart id → apart' id) :
    Paired apart' rs os :=
  h.imp fun _ _ h => h.mono hle

lemma Paired.ids (h : Paired apart rs os) : rs.map (·.id) = os.map (·.id) := by
  induction h with
  | nil => rfl
  | cons hro _ ih => rw [List.map_cons, List.map_cons, hro.id_eq, ih]

lemma Paired.live (h : Paired apart rs os) : rs.filter (·.isLive) = os.filter (·.isLive) := by
  induction h with
  | nil => rfl
  | @cons r o rs os hro _ ih =>
    rw [List.filter_cons, List.filter_cons, hro.isLive_eq, ih]
    split
    next hl => rw [hro.eq_of_live hl]
    next => rfl

lemma mem_live : r ∈ rs.filter (·.isLive) ↔ r ∈ rs ∧ r.isLive = true := List.mem_filter

lemma Paired.orderly (h : Paired apart rs os) (ho : Orderly os) : Orderly rs := by
  refine ⟨h.ids ▸ ho.1, fun r hr s hs hrl hsl => ?_⟩
  have hmem : ∀ x ∈ rs, x.isLive = true → x ∈ os := fun x hx hl =>
    (mem_live.mp (h.live ▸ mem_live.mpr ⟨hx, hl⟩)).1
  exact ho.2 r (hmem r hr hrl) s (hmem s hs hsl) hrl hsl

lemma Paired.withId (h : Paired apart rs os) (id : String) :
    (Store.withId rs id = none ∧ Store.withId os id = none) ∨
      ∃ r o, Store.withId rs id = some r ∧ Store.withId os id = some o ∧ Parted apart r o := by
  induction h with
  | nil => exact .inl ⟨rfl, rfl⟩
  | @cons r o rs os hro _ ih =>
    by_cases hid : o.id = id
    · exact .inr ⟨r, o, by simp [Store.withId, hro.id_eq, hid], by simp [Store.withId, hid], hro⟩
    · simpa [Store.withId, hro.id_eq, hid] using ih

/-- The record of an identity gives way to another one in either list. -/
lemma Paired.amend (h : Paired apart rs os) (id : String) (hro : Parted apart r o) :
    Paired apart (amend id (fun _ => r) rs) (amend id (fun _ => o) os) := by
  refine List.forall₂_map_left_iff.mpr (List.forall₂_map_right_iff.mpr (h.imp fun x y hxy => ?_))
  by_cases hid : x.id = id
  · rw [if_pos hid, if_pos (hxy.id_eq ▸ hid)]
    exact hro
  · rw [if_neg hid, if_neg (hxy.id_eq ▸ hid)]
    exact hxy

lemma Paired.append (h : Paired apart rs os) (r : Record) :
    Paired apart (rs ++ [r]) (os ++ [r]) :=
  List.rel_append h (.cons (.refl r) .nil)

end

/-! ### Calls -/

/-- The sizes of memory that a call tells fit into a table. -/
def Operation.IsSmall : Operation → Prop
  | .create n => n.memoryMb.toNat < 2 ^ 63
  | .update _ _ p => ∀ x, p.memoryMb = some x → x.toNat < 2 ^ 63
  | .findByAddress _ | .findByName _ | .touch .. | .get _ | .list | .delete _ => True

/-- The times and numbers of a call fit into a table. -/
def Request.Fits (q : Request) : Prop := q.Plain ∧ q.op.IsSmall

/-- The record whose version a call tells or compares. -/
def Operation.reads? : Operation → Option String
  | .update id _ _ | .get id => some id
  | .findByAddress _ | .findByName _ | .create _ | .touch .. | .list | .delete _ => none

/-- An update, at its right version, of a deleted record that would share its name or its address
with a live one. -/
def Refused (rs : List Record) : Operation → Prop
  | .update id v p => ∃ r ∈ rs, r.id = id ∧ r.version = v ∧ r.isLive = false ∧
      Taken rs (p.name.getD r.name) r.address
  | _ => False

namespace Request

/-- The call updates the record and is refused by the store in memory alone. -/
def Parts (q : Request) (rs : List Record) (id : String) : Prop :=
  ∃ v p, q.op = .update id v p ∧ Refused rs q.op

/-- The same answer. Only of a new record whose name and address are both taken may the stores
tell different ones. -/
def Alike (q : Request) (rs : List Record) (a b : q.op.Answer) : Prop :=
  a = b ∨ ∃ n, q.op = .create n ∧
    (∃ r ∈ rs, r.isLive = true ∧ r.name = n.name) ∧
    (∃ r ∈ rs, r.isLive = true ∧ r.address = n.address) ∧
    ∃ u ∈ [Unique.ip, .name], ∃ u' ∈ [Unique.ip, .name],
      a = .error (Ledger.clashError (n.toRecord q.stamp) u) ∧
      b = .error (Ledger.clashError (n.toRecord q.stamp) u')

/-- How the answers of memory and table to a call compare. -/
def Compare (q : Request) (rs : List Record) (a b : q.op.Answer) : Prop :=
  (Refused rs q.op ∧ (∃ u v, a = .error (.duplicate u v)) ∧ b.isOk = true) ∨
    (¬ Refused rs q.op ∧ q.Alike rs a b)

end Request

/-! ### Two stores with the same calls -/

/-- What a store in memory and a table have in common after the same calls, `n` of them, which have
used up some identities and have parted the two stores on some records. -/
structure Twins (n : Nat) (used : List String) (apart : String → Prop) (m : Memory) (t : Sql.Table)
    (os : List Record) : Prop where
  memory : m.Keeps m.hashing m.records
  table : t.InOrder os
  paired : Paired apart m.records os
  small : ∀ o ∈ os, o.memoryMb.toNat < 2 ^ 63 ∧ o.version ≤ n
  known : ∀ o ∈ os, o.id ∈ used

/-- What a call makes of two such stores, and how its answers compare. -/
def Twins.Goes (n : Nat) (used : List String) (apart : String → Prop) (m : Memory) (t : Sql.Table)
    (q : Request) : Prop :=
  (∃ os', Twins (n + 1) (used ++ q.creates?.toList) (fun id => apart id ∨ q.Parts m.records id)
    (m.step q.stamp q.op).2 (Sql.step q.stamp q.op t).2 os') ∧
  ((∀ id ∈ q.op.reads?, ¬ apart id) →
    q.Compare m.records (m.step q.stamp q.op).1 (Sql.step q.stamp q.op t).1)

section

variable {n : Nat} {used : List String} {apart : String → Prop} {m : Memory} {t : Sql.Table}
  {os : List Record} {q : Request} {o : Record}

lemma Request.compare_of_eq {rs : List Record} {a b : q.op.Answer} (hno : ¬ Refused rs q.op)
    (h : a = b) : q.Compare rs a b :=
  .inr ⟨hno, .inl h⟩

/-- Of a live record both kinds of store find that it clashes, though maybe with another one. -/
lemma Medium.clash?_eq_none_iff_of_live {k : Hashing} {r : Record} (hl : r.isLive = true) :
    (memory k).clash? os r = none ↔ table.clash? os r = none :=
  (clash?_eq_none_iff (.inr hl)).trans (clash?_eq_none_iff (.inr hl)).symm

lemma Medium.exists_clash_table {k : Hashing} {r : Record} (hl : r.isLive = true) {u : Unique}
    (hu : (memory k).clash? os r = some u) : ∃ u', table.clash? os r = some u' :=
  Option.ne_none_iff_exists'.mp fun hfree =>
    Option.some_ne_none u (hu.symm.trans ((clash?_eq_none_iff_of_live hl).mpr hfree))

namespace Twins

lemma goes_of_eq {a b : q.op.Answer} {m' : Memory} {t' : Sql.Table} {os' : List Record}
    (hm : m.step q.stamp q.op = (a, m')) (ht : Sql.step q.stamp q.op t = (b, t'))
    (h : Twins (n + 1) (used ++ q.creates?.toList) (fun id => apart id ∨ q.Parts m.records id)
      m' t' os')
    (hab : (∀ id ∈ q.op.reads?, ¬ apart id) → q.Compare m.records a b) :
    Goes n used apart m t q := by
  unfold Goes
  rw [hm, ht]
  exact ⟨⟨os', h⟩, hab⟩

/-- The parting of two stores after one more call. -/
abbrev Apart (apart : String → Prop) (m : Memory) (q : Request) (id : String) : Prop :=
  apart id ∨ q.Parts m.records id

variable (h : Twins n used apart m t os)
include h

lemma orderly : Orderly m.records := h.paired.orderly h.table.orderly

/-- One more call that changes nothing. -/
lemma later (q : Request) :
    Twins (n + 1) (used ++ q.creates?.toList) (Apart apart m q) m t os where
  memory := h.memory
  table := h.table
  paired := h.paired.mono fun _ => .inl
  small := fun o ho => ⟨(h.small o ho).1, Nat.le_succ_of_le (h.small o ho).2⟩
  known := fun o ho => List.mem_append_left _ (h.known o ho)

/-- Both stores change the record of an identity. -/
lemma amend {id : String} {r x : Record} {m' : Memory} {t' : Sql.Table}
    (hm : m'.Keeps m.hashing (Store.amend id (fun _ => r) m.records))
    (ht : t'.InOrder (Store.amend id (fun _ => x) os)) (hrx : Parted (Apart apart m q) r x)
    (hid : x.id = id) (hx : x.memoryMb.toNat < 2 ^ 63 ∧ x.version ≤ n + 1) :
    Twins (n + 1) (used ++ q.creates?.toList) (Apart apart m q) m' t'
      (Store.amend id (fun _ => x) os) where
  memory := by rw [hm.hashing, hm.records]; exact hm
  table := ht
  paired := by rw [hm.records]; exact (h.paired.mono fun _ => .inl).amend id hrx
  small := by
    intro y hy
    obtain ⟨z, hz, rfl⟩ := mem_amend.mp hy
    split
    · exact hx
    · exact ((h.later q).small z hz)
  known := by
    intro y hy
    obtain ⟨z, hz, rfl⟩ := mem_amend.mp hy
    split
    next he => exact hid ▸ he ▸ (h.later q).known z hz
    next => exact (h.later q).known z hz

lemma asRead_eq_self (hn : n < 2 ^ 63) (ho : o ∈ os) : o.asRead = o :=
  Sql.asRead_eq_self (h.small o ho).1 (by have := (h.small o ho).2; omega)

/-- What is found in the table is read as it was written. -/
lemma run_select (hn : n < 2 ^ 63) {k : Sql.Key} {p : Record → Bool}
    (hp : ∀ o, k.admits (Sql.Row.ofRecord o) = p o) :
    (Sql.selectRecord k).run Sql.Table.exec t = (.ok (os.find? p), t) := by
  rw [Sql.Table.run_selectRecord h.table.keeps h.table.readable hp]
  cases hf : os.find? p with
  | none => rfl
  | some o => rw [Option.map_some, h.asRead_eq_self hn (List.mem_of_find?_eq_some hf)]

lemma run_id (hn : n < 2 ^ 63) (id : String) :
    (Sql.selectRecord (.id id)).run Sql.Table.exec t = (.ok (withId os id), t) :=
  h.run_select hn (Sql.Table.admits_id id)

lemma find?_live (p : Record → Bool) :
    m.live.find? p = os.find? fun o => o.isLive && p o := by
  rw [h.memory.live, h.paired.live, List.find?_filter]
  simp

/-! #### Calls that look up -/

lemma findByAddress (hn : n < 2 ^ 63) (s : Stamp) (a : Net.Address) :
    Goes n used apart m t ⟨s, .findByAddress a⟩ := by
  have hm : m.step s (.findByAddress a) = (.ok (liveAt os a), m) := by
    rw [h.memory.step]
    exact congrArg (·, m) (congrArg Except.ok (h.find?_live _))
  exact goes_of_eq hm (h.run_select hn (Sql.Table.admits_liveAddress a)) (h.later _)
    fun _ => Request.compare_of_eq not_false rfl

lemma findByName (hn : n < 2 ^ 63) (s : Stamp) (name : String) :
    Goes n used apart m t ⟨s, .findByName name⟩ := by
  have hm : m.step s (.findByName name) =
      (.ok (os.find? fun o => o.isLive && o.name = name), m) := by
    rw [h.memory.step]
    exact congrArg (·, m) (congrArg Except.ok (h.find?_live _))
  exact goes_of_eq hm (h.run_select hn (Sql.Table.admits_liveName name)) (h.later _)
    fun _ => Request.compare_of_eq not_false rfl

lemma get (hn : n < 2 ^ 63) (s : Stamp) (id : String) : Goes n used apart m t ⟨s, .get id⟩ := by
  have hm : m.step s (.get id) = (.ok (withId m.records id), m) := by
    rw [h.memory.step]
    rfl
  refine goes_of_eq hm (h.run_id hn id) (h.later _) fun hsame => ?_
  refine Request.compare_of_eq not_false (congrArg Except.ok ?_)
  rcases h.paired.withId id with ⟨hr, ho⟩ | ⟨r, o, hr, ho, rfl | ⟨hapart, -⟩⟩
  · exact hr.trans ho.symm
  · exact hr.trans ho.symm
  · exact absurd ((withId_eq_some hr).2 ▸ hapart) (hsame id rfl)

lemma list (hn : n < 2 ^ 63) (s : Stamp) : Goes n used apart m t ⟨s, .list⟩ := by
  have hm : m.step s .list = (.ok (sortByName (os.filter (·.isLive))), m) := by
    rw [h.memory.step, ← h.paired.live, ← h.memory.live]
    rfl
  have ht : Sql.step s .list t = (.ok (sortByName (os.filter (·.isLive))), t) := by
    rw [h.table.step_list]
    refine congrArg (·, t) (congrArg Except.ok ?_)
    conv_rhs => rw [← List.map_id (sortByName _)]
    exact List.map_congr_left fun o ho =>
      h.asRead_eq_self hn (List.mem_of_mem_filter (Sql.Table.mem_sortByName.mp ho))
  exact goes_of_eq hm ht (h.later _) fun _ => Request.compare_of_eq not_false rfl

/-! #### Calls that write -/

lemma mem_live {r : Record} (hl : r.isLive = true) : r ∈ m.records ↔ r ∈ os := by
  have : r ∈ m.records.filter (·.isLive) ↔ r ∈ os.filter (·.isLive) := by rw [h.paired.live]
  simpa [hl] using this

/-- In memory a record is compared with the live ones of the table. -/
lemma clash?_eq (r : Record) :
    m.clash? r = ((Medium.memory m.hashing).clash? os r).map (Ledger.clashError r) := by
  rw [h.memory.clash?_eq, Medium.clash?_congr h.paired.live h.paired.ids]

/-- An identity that is not used up is that of no record in either store. -/
lemma id_ne {id : String} (hid : id ∉ used) :
    (∀ o ∈ os, o.id ≠ id) ∧ ∀ r ∈ m.records, r.id ≠ id := by
  have hnew : ∀ o ∈ os, o.id ≠ id := fun o ho he => hid (he ▸ h.known o ho)
  refine ⟨hnew, fun r hr => ?_⟩
  obtain ⟨o, ho, heq⟩ := List.mem_map.mp (h.paired.ids ▸ List.mem_map_of_mem hr)
  rw [← heq]
  exact hnew o ho

section

variable {s : Stamp} {w : NewRecord} (hid : s.id ∉ used)
include hid

lemma create_free (hfits : (Request.mk s (.create w)).Fits)
    (hu : (Medium.memory m.hashing).clash? os (w.toRecord s) = none) :
    Goes n used apart m t ⟨s, .create w⟩ := by
  have hnew : ∀ o ∈ os, o.id ≠ (w.toRecord s).id := (h.id_ne hid).1
  have hclash := h.clash?_eq (w.toRecord s)
  rw [hu] at hclash
  obtain ⟨t', ht, horder⟩ :=
    h.table.insert hnew rfl (Sql.Table.readable_new hfits.1.2 hfits.1.1)
      ((Medium.clash?_eq_none_iff_of_live rfl).mp hu)
  have hrun := Sql.Table.step_create ht
  have hm : m.step s (.create w) = (.ok (w.toRecord s), m.written (w.toRecord s)) :=
    (h.memory.step s _).trans (Memory.answer_create_free hclash)
  have hkeeps := h.memory.written (w.toRecord s)
  rw [Memory.putInto_of_new (h.id_ne hid).2] at hkeeps
  suffices htwins : Twins (n + 1) (used ++ (Request.mk s (.create w)).creates?.toList)
      (Apart apart m ⟨s, .create w⟩) (m.written (w.toRecord s)) t' (os ++ [w.toRecord s]) from
    goes_of_eq hm hrun htwins fun _ => Request.compare_of_eq not_false rfl
  refine ⟨?_, horder, ?_, ?_, ?_⟩
  · rw [hkeeps.hashing, hkeeps.records]
    exact hkeeps
  · rw [hkeeps.records]
    exact (h.later _).paired.append _
  · intro o ho
    rcases List.mem_append.mp ho with ho | ho
    · exact (h.later ⟨s, .create w⟩).small o ho
    · rw [List.mem_singleton.mp ho]
      exact ⟨hfits.2, Nat.le_add_left 1 n⟩
  · intro o ho
    rcases List.mem_append.mp ho with ho | ho
    · exact (h.later ⟨s, .create w⟩).known o ho
    · rw [List.mem_singleton.mp ho]
      exact List.mem_append_right _ (List.mem_singleton.mpr rfl)

/-- Of two clashes the stores may tell different ones. -/
lemma create_clash {u : Unique}
    (hu : (Medium.memory m.hashing).clash? os (w.toRecord s) = some u) :
    Goes n used apart m t ⟨s, .create w⟩ := by
  have hclash := h.clash?_eq (w.toRecord s)
  rw [hu] at hclash
  obtain ⟨u', hu'⟩ := Medium.exists_clash_table rfl hu
  have hm : m.step s (.create w) = (.error (Ledger.clashError (w.toRecord s) u), m) :=
    (h.memory.step s _).trans (Memory.answer_create_clash hclash)
  have ht : Sql.step s (.create w) t = (.error (Ledger.clashError (w.toRecord s) u'), t) := by
    rw [Sql.Table.step_create (h.table.keeps.insert_of_clash (h.id_ne hid).1 hu'),
      ← Sql.Table.ofWrite_of_clash hu']
    rfl
  refine goes_of_eq hm ht (h.later _) fun _ => .inr ⟨not_false, ?_⟩
  obtain ⟨x, hx, hxl, -, hxu⟩ := Medium.clash?_eq_some hu
  obtain ⟨y, hy, hyl, -, hyu⟩ := Medium.clash?_eq_some hu'
  rw [← h.mem_live hxl] at hx
  rw [← h.mem_live hyl] at hy
  rcases hxu with ⟨rfl, hxa⟩ | ⟨rfl, hxn⟩ <;> rcases hyu with ⟨rfl, hya⟩ | ⟨rfl, hyn⟩
  · exact .inl rfl
  · exact .inr ⟨w, rfl, ⟨y, hy, hyl, hyn⟩, ⟨x, hx, hxl, hxa⟩, _, by simp, _, by simp, rfl, rfl⟩
  · exact .inr ⟨w, rfl, ⟨x, hx, hxl, hxn⟩, ⟨y, hy, hyl, hya⟩, _, by simp, _, by simp, rfl, rfl⟩
  · exact .inl rfl

lemma create (hfits : (Request.mk s (.create w)).Fits) : Goes n used apart m t ⟨s, .create w⟩ := by
  cases hu : (Medium.memory m.hashing).clash? os (w.toRecord s) with
  | none => exact h.create_free hid hfits hu
  | some u => exact h.create_clash hid hu

end

/-- A record that is written in memory gives way to the new one. -/
lemma putInto_eq {id : String} {r : Record} (new : Record) (hr : withId m.records id = some r)
    (hid : new.id = id) : Memory.putInto new m.records =
      Store.amend id (fun _ => new) m.records := by
  obtain ⟨hmem, rfl⟩ := withId_eq_some hr
  exact Memory.putInto_of_mem h.orderly.1 hmem hid

lemma memory_same {id : String} {r : Record} (hr : withId m.records id = some r) :
    m.Keeps m.hashing (Store.amend id (fun _ => r) m.records) := by
  rw [h.orderly.amend_same hr]
  exact h.memory

lemma table_same {id : String} (ho : withId os id = some o) :
    t.InOrder (Store.amend id (fun _ => o) os) := by
  rw [h.table.orderly.amend_same ho]
  exact h.table

lemma touch (hn : n < 2 ^ 63) (s : Stamp) (id : String) {u : Time.Instant}
    (hu : u.HasPlainYear) : Goes n used apart m t ⟨s, .touch id u⟩ := by
  have hmem := h.memory.step s (.touch id u)
  have hsel := h.run_id hn id
  rcases h.paired.withId id with ⟨hr, ho⟩ | ⟨r, o, hr, ho, hro⟩
  · rw [ho] at hsel
    exact goes_of_eq (hmem.trans (Memory.answer_touch_of_none hr))
      (Sql.Table.step_touch_of_none hsel) (h.later _) fun _ => Request.compare_of_eq not_false rfl
  rw [ho] at hsel
  obtain ⟨hom, rfl⟩ := withId_eq_some ho
  have hm := hmem.trans (Memory.answer_touch hr)
  have ht : ∃ t', Sql.step s (.touch o.id u) t = (.ok (), t') ∧
      t'.InOrder (Store.amend o.id (fun _ => o.touched u) os) := by
    rw [Sql.Table.step_touch hsel]
    by_cases hlt : o.lastSeen < u
    · have hseen : o.touched u = o.seenAt u := by
        rw [Record.touched, Time.Instant.latest, if_pos hlt]
        rfl
      obtain ⟨t', ht, horder⟩ := h.table.setLastSeen hom hu
      rw [if_pos hlt, ht, hseen]
      exact ⟨t', rfl, horder⟩
    · have hsame : o.touched u = o := by rw [Record.touched, Time.Instant.latest, if_neg hlt]
      rw [if_neg hlt, hsame]
      exact ⟨t, rfl, h.table_same ho⟩
  obtain ⟨t', ht, horder⟩ := ht
  have hpair : Parted (Apart apart m ⟨s, .touch o.id u⟩) (r.touched u) (o.touched u) := by
    rcases hro with rfl | ⟨hapart, hid, hr, ho⟩
    · exact .refl _
    · exact .inr ⟨.inl hapart, hid, hr, ho⟩
  have hkeeps := h.memory.put (r.touched u)
  rw [h.putInto_eq (r.touched u) hr hro.id_eq] at hkeeps
  exact goes_of_eq hm ht (h.amend hkeeps horder hpair rfl
    ((h.later ⟨s, .touch o.id u⟩).small o hom)) fun _ => Request.compare_of_eq not_false rfl

lemma delete (hn : n + 1 < 2 ^ 63) {s : Stamp} (hnow : s.now.HasPlainYear) (id : String) :
    Goes n used apart m t ⟨s, .delete id⟩ := by
  have hmem := h.memory.step s (.delete id)
  have hrun : Sql.step s (.delete id) t =
      ((Sql.lift Sql.Fault.error
        (Sql.Table.exec (.markDeleted id (Sql.Row.instantText s.now)) t).1).map
          fun n : Nat => decide (0 < n),
        (Sql.Table.exec (.markDeleted id (Sql.Row.instantText s.now)) t).2) := rfl
  -- a record that is not there, or is dead in one store and so in the other
  have hnothing : (∀ r, m.find? id = some r → r.isLive = false) →
      (∀ o ∈ os, o.id = id → o.isLive = false) → Goes n used apart m t ⟨s, .delete id⟩ := by
    intro hr ho
    rw [h.table.markDeleted_of_none ho] at hrun
    exact goes_of_eq (hmem.trans (Memory.answer_delete_of_dead hr)) hrun (h.later _)
      fun _ => Request.compare_of_eq not_false rfl
  rcases h.paired.withId id with ⟨hr, ho⟩ | ⟨r, o, hr, ho, hro⟩
  · refine hnothing (fun r hsome => ?_) fun o hom hid => ?_
    · rw [show m.find? id = none from hr] at hsome
      cases hsome
    · exact absurd hid (by simpa using List.find?_eq_none.mp ho o hom)
  · by_cases hl : o.isLive = true
    · obtain rfl := hro.eq_of_live hl
      obtain ⟨hom, rfl⟩ := withId_eq_some ho
      have hv := (h.small r hom).2
      have hmax : ¬ maxVersion ≤ r.version := by
        unfold maxVersion
        omega
      obtain ⟨t', ht, horder⟩ := h.table.markDeleted hom hl hnow (by omega)
      rw [ht] at hrun
      have hkeeps := h.memory.written (r.deleted s.now)
      rw [h.putInto_eq (r.deleted s.now) hr rfl] at hkeeps
      exact goes_of_eq (hmem.trans (Memory.answer_delete hr hl hmax)) hrun
        (h.amend hkeeps horder (.refl _) rfl ⟨(h.small r hom).1, Nat.succ_le_succ hv⟩)
        fun _ => Request.compare_of_eq not_false rfl
    · have hdead : o.isLive = false := by simpa using hl
      refine hnothing (fun x hx => ?_) fun x hx hid => ?_
      · obtain rfl := Option.some.inj (hr.symm.trans hx)
        rw [hro.isLive_eq, hdead]
      · obtain ⟨hom, rfl⟩ := withId_eq_some ho
        rw [h.table.orderly.eq_of_id hx hom hid, hdead]

/-! #### Updates -/

lemma not_max (hn : n < 2 ^ 63) (ho : o ∈ os) : ¬ maxVersion ≤ o.version := by
  have := (h.small o ho).2
  unfold maxVersion
  omega

lemma refused_iff {id : String} {r : Record} (hr : withId m.records id = some r) (v : Nat)
    (p : Patch) : Refused m.records (.update id v p) ↔ r.version = v ∧ r.isLive = false ∧
      Taken m.records (p.name.getD r.name) r.address := by
  obtain ⟨hmem, rfl⟩ := withId_eq_some hr
  constructor
  · rintro ⟨x, hx, hid, hrest⟩
    rwa [← h.orderly.eq_of_id hx hmem hid]
  · exact fun hrest => ⟨r, hmem, rfl, hrest⟩

lemma small_revised {s : Stamp} {id : String} {v : Nat} {p : Patch}
    (hfits : (Request.mk s (.update id v p)).Fits) (ho : o ∈ os) :
    (o.revised s.now p).memoryMb.toNat < 2 ^ 63 ∧ (o.revised s.now p).version ≤ n + 1 := by
  refine ⟨?_, Nat.succ_le_succ (h.small o ho).2⟩
  cases hp : p.memoryMb with
  | none => simpa [Record.revised, Patch.apply, hp] using (h.small o ho).1
  | some x => simpa [Record.revised, Patch.apply, hp] using hfits.2 x hp

section

variable (hn : n < 2 ^ 63) {s : Stamp} {v : Nat} {p : Patch} (ho : o ∈ os)
include hn ho

lemma table_update_conflict (hv : o.version ≠ v) :
    Sql.step s (.update o.id v p) t = (.error (.conflict o.id v o.version), t) := by
  have hsel := h.run_id hn o.id
  rw [h.table.orderly.withId_of_mem ho] at hsel
  rw [Sql.Table.step_update v p hsel, if_pos hv]

lemma table_update_clash {u : Unique}
    (hu : Medium.table.clash? os (o.revised s.now p) = some u)
    (hfits : (Request.mk s (.update o.id o.version p)).Fits) :
    Sql.step s (.update o.id o.version p) t =
      (.error (Ledger.clashError (o.revised s.now p) u), t) := by
  have hsel := h.run_id hn o.id
  rw [h.table.orderly.withId_of_mem ho] at hsel
  have hread := Sql.Table.readable_apply (h.table.readable o ho) hfits.1.1 hfits.1.2
  have hreplace := (h.table.replace (n := o.revised s.now p) ho rfl rfl rfl hread).1 u hu
  rw [Record.revised] at hreplace
  rw [Sql.Table.step_update _ p hsel, if_neg (by simp), if_neg (h.not_max hn ho), hreplace,
    ← Sql.Table.ofWrite_of_clash hu]
  rfl

lemma table_update_free (hu : Medium.table.clash? os (o.revised s.now p) = none)
    (hfits : (Request.mk s (.update o.id o.version p)).Fits) :
    ∃ t', Sql.step s (.update o.id o.version p) t = (.ok (o.revised s.now p), t') ∧
      t'.InOrder (Store.amend o.id (fun _ => o.revised s.now p) os) := by
  have hsel := h.run_id hn o.id
  rw [h.table.orderly.withId_of_mem ho] at hsel
  have hread := Sql.Table.readable_apply (h.table.readable o ho) hfits.1.1 hfits.1.2
  obtain ⟨t', hreplace, horder⟩ :=
    (h.table.replace (n := o.revised s.now p) ho rfl rfl rfl hread).2 hu
  refine ⟨t', ?_, horder⟩
  rw [Record.revised] at hreplace
  rw [Sql.Table.step_update _ p hsel, if_neg (by simp), if_neg (h.not_max hn ho), hreplace]
  rfl

end

lemma update_live (hn : n < 2 ^ 63) {s : Stamp} {r : Record} {v : Nat} {p : Patch}
    (hfits : (Request.mk s (.update r.id v p)).Fits) (hr : withId m.records r.id = some r)
    (ho : r ∈ os) (hl : r.isLive = true) : Goes n used apart m t ⟨s, .update r.id v p⟩ := by
  have hmem := h.memory.step s (.update r.id v p)
  have hno : ¬ Refused m.records (.update r.id v p) := fun hrefused => by
    obtain ⟨-, hdead, -⟩ := (h.refused_iff hr v p).mp hrefused
    simp [hl] at hdead
  by_cases hv : r.version = v
  swap
  · exact goes_of_eq (hmem.trans (Memory.answer_update_conflict hr hv))
      (h.table_update_conflict hn ho hv) (h.later _) fun _ => Request.compare_of_eq hno rfl
  subst hv
  have hmax := h.not_max hn ho
  have hclash := h.clash?_eq (r.revised s.now p)
  have hlive : (r.revised s.now p).isLive = true := hl
  cases hu : (Medium.memory m.hashing).clash? os (r.revised s.now p) with
  | none =>
    obtain ⟨t', ht, horder⟩ := h.table_update_free hn ho
      ((Medium.clash?_eq_none_iff_of_live hlive).mp hu) hfits
    rw [hu] at hclash
    have hkeeps := h.memory.written (r.revised s.now p)
    rw [h.putInto_eq (r.revised s.now p) hr rfl] at hkeeps
    exact goes_of_eq (hmem.trans (Memory.answer_update_free hr hmax hclash)) ht
      (h.amend hkeeps horder (.refl _) rfl (h.small_revised hfits ho))
      fun _ => Request.compare_of_eq hno rfl
  | some u =>
    -- the address is that of no other live record, so that it is the name that is taken
    have hname : ∀ {k : Medium} {w}, k.clash? os (r.revised s.now p) = some w → w = .name := by
      intro k w hw
      obtain ⟨x, hx, hxl, hxid, ⟨-, hxa⟩ | ⟨hname, -⟩⟩ := Medium.clash?_eq_some hw
      · exact absurd (h.table.orderly.2 x hx r ho hxl hl (.inl hxa)) hxid
      · exact hname
    obtain ⟨u', hu'⟩ := Medium.exists_clash_table hlive hu
    obtain rfl := hname hu
    obtain rfl := hname hu'
    rw [hu] at hclash
    exact goes_of_eq (hmem.trans (Memory.answer_update_clash hr hmax hclash))
      (h.table_update_clash hn ho hu' hfits) (h.later _)
      fun _ => Request.compare_of_eq hno rfl

/-- A deleted record of which the stores know the same: the store in memory alone refuses to give
it what a live record has. -/
lemma update_dead (hn : n < 2 ^ 63) {s : Stamp} {r : Record} {v : Nat} {p : Patch}
    (hfits : (Request.mk s (.update r.id v p)).Fits) (hr : withId m.records r.id = some r)
    (ho : r ∈ os) (hdead : r.isLive = false) : Goes n used apart m t ⟨s, .update r.id v p⟩ := by
  have hmem := h.memory.step s (.update r.id v p)
  have hrefused := h.refused_iff hr v p
  by_cases hv : r.version = v
  swap
  · exact goes_of_eq (hmem.trans (Memory.answer_update_conflict hr hv))
      (h.table_update_conflict hn ho hv) (h.later _)
      fun _ => Request.compare_of_eq (fun hc => hv (hrefused.mp hc).1) rfl
  subst hv
  have hmax := h.not_max hn ho
  have hclash := h.clash?_eq (r.revised s.now p)
  obtain ⟨t', ht, horder⟩ :=
    h.table_update_free hn ho (Medium.clash?_table_of_dead hdead) hfits
  have hsmall := h.small_revised hfits ho
  cases hu : (Medium.memory m.hashing).clash? os (r.revised s.now p) with
  | none =>
    have hno : ¬ Refused m.records (.update r.id r.version p) := by
      intro hc
      obtain ⟨-, -, x, hx, hxl, htaken⟩ := hrefused.mp hc
      rw [h.mem_live hxl] at hx
      refine (Medium.clash?_eq_none_iff (m := .memory m.hashing) (.inl nofun)).mp hu x hx hxl
        (fun hid => ?_) htaken
      rw [h.table.orderly.eq_of_id hx ho hid, hdead] at hxl
      cases hxl
    rw [hu] at hclash
    have hkeeps := h.memory.written (r.revised s.now p)
    rw [h.putInto_eq (r.revised s.now p) hr rfl] at hkeeps
    exact goes_of_eq (hmem.trans (Memory.answer_update_free hr hmax hclash)) ht
      (h.amend hkeeps horder (.refl _) rfl hsmall) fun _ => Request.compare_of_eq hno rfl
  | some u =>
    have hc : Refused m.records (.update r.id r.version p) := by
      refine hrefused.mpr ⟨rfl, hdead, ?_⟩
      obtain ⟨x, hx, hxl, -, ⟨-, hxa⟩ | ⟨-, hxn⟩⟩ := Medium.clash?_eq_some hu
      · exact ⟨x, (h.mem_live hxl).mpr hx, hxl, .inl hxa⟩
      · exact ⟨x, (h.mem_live hxl).mpr hx, hxl, .inr hxn⟩
    have hdup : ∃ f w, Ledger.clashError (r.revised s.now p) u = .duplicate f w := by
      cases u <;> exact ⟨_, _, rfl⟩
    rw [hu] at hclash
    refine goes_of_eq (hmem.trans (Memory.answer_update_clash hr hmax hclash)) ht
      (h.amend (h.memory_same hr) horder (.inr ⟨.inr ⟨_, _, rfl, hc⟩, rfl, hdead, hdead⟩) rfl
        hsmall) fun _ => .inl ⟨hc, ?_, rfl⟩
    obtain ⟨f, w, hfw⟩ := hdup
    exact ⟨f, w, congrArg Except.error hfw⟩

lemma memory_update_dead {r : Record} (hr : withId m.records r.id = some r)
    (hdead : r.isLive = false) (s : Stamp) (v : Nat) (p : Patch) :
    ∃ y : Record, y.id = r.id ∧ y.isLive = false ∧
      (m.step s (.update r.id v p)).2.Keeps m.hashing
        (Store.amend r.id (fun _ => y) m.records) := by
  have hsame := h.memory_same hr
  rw [h.memory.step]
  by_cases hv : r.version = v
  swap
  · exact ⟨r, rfl, hdead, by rwa [Memory.answer_update_conflict hr hv]⟩
  subst hv
  by_cases hmax : maxVersion ≤ r.version
  · exact ⟨r, rfl, hdead, by rwa [Memory.answer_update_overflow hr hmax]⟩
  cases hc : m.clash? (r.revised s.now p) with
  | some e => exact ⟨r, rfl, hdead, by rwa [Memory.answer_update_clash hr hmax hc]⟩
  | none =>
    refine ⟨r.revised s.now p, rfl, hdead, ?_⟩
    rw [Memory.answer_update_free hr hmax hc, ← h.putInto_eq (r.revised s.now p) hr rfl]
    exact h.memory.written _

lemma table_update_dead (hn : n < 2 ^ 63) {s : Stamp} {v : Nat} {p : Patch}
    (hfits : (Request.mk s (.update o.id v p)).Fits) (ho : o ∈ os)
    (hdead : o.isLive = false) :
    ∃ x : Record, x.id = o.id ∧ x.isLive = false ∧
      (x.memoryMb.toNat < 2 ^ 63 ∧ x.version ≤ n + 1) ∧
      (Sql.step s (.update o.id v p) t).2.InOrder (Store.amend o.id (fun _ => x) os) := by
  by_cases hv : o.version = v
  · subst hv
    obtain ⟨t', ht, horder⟩ :=
      h.table_update_free hn ho (Medium.clash?_table_of_dead hdead) hfits
    exact ⟨o.revised s.now p, rfl, hdead, h.small_revised hfits ho, by rwa [ht]⟩
  · refine ⟨o, rfl, hdead, (h.later ⟨s, .list⟩).small o ho, ?_⟩
    rw [h.table_update_conflict hn ho hv]
    exact h.table_same (h.table.orderly.withId_of_mem ho)

lemma update (hn : n < 2 ^ 63) {s : Stamp} {id : String} {v : Nat} {p : Patch}
    (hfits : (Request.mk s (.update id v p)).Fits) :
    Goes n used apart m t ⟨s, .update id v p⟩ := by
  rcases h.paired.withId id with ⟨hr, ho⟩ | ⟨r, o, hr, ho, hro⟩
  · have hsel := h.run_id hn id
    rw [ho] at hsel
    refine goes_of_eq ((h.memory.step s _).trans (Memory.answer_update_of_none hr))
      (Sql.Table.step_update_of_none v p hsel) (h.later _) fun _ => Request.compare_of_eq ?_ rfl
    rintro ⟨x, hx, rfl, -⟩
    rw [h.orderly.withId_of_mem hx] at hr
    cases hr
  obtain ⟨hom, rfl⟩ := withId_eq_some ho
  rcases hro with rfl | ⟨hapart, hid, hrdead, hodead⟩
  · cases hl : r.isLive with
    | true => exact h.update_live hn hfits hr hom hl
    | false => exact h.update_dead hn hfits hr hom hl
  · rw [← hid] at hr
    obtain ⟨y, hyid, hydead, hkeeps⟩ := h.memory_update_dead hr hrdead s v p
    obtain ⟨x, hxid, hxdead, hx, horder⟩ := h.table_update_dead hn hfits hom hodead
    rw [hid] at hkeeps
    refine goes_of_eq rfl rfl (h.amend hkeeps horder (.inr ⟨.inl ?_, ?_, hydead, hxdead⟩) hxid hx)
      fun hsame => absurd (hid ▸ hapart) (hsame o.id rfl)
    · rwa [hyid]
    · rw [hyid, hxid, hid]

/-- **What a call makes of the two stores.** -/
theorem step (hn : n + 1 < 2 ^ 63) {q : Request} (hfits : q.Fits)
    (hnew : ∀ id ∈ q.creates?, id ∉ used) : Goes n used apart m t q := by
  have hn' : n < 2 ^ 63 := by omega
  obtain ⟨s, op⟩ := q
  cases op with
  | findByAddress a => exact h.findByAddress hn' s a
  | findByName name => exact h.findByName hn' s name
  | create w => exact h.create (hnew s.id rfl) hfits
  | update id v p => exact h.update hn' hfits
  | touch id u => exact h.touch hn' s id hfits.1.2
  | get id => exact h.get hn' s id
  | list => exact h.list hn' s
  | delete id => exact h.delete hn hfits.1.1 id

lemma mono {apart' : String → Prop} (hle : ∀ id, apart id → apart' id) :
    Twins n used apart' m t os where
  memory := h.memory
  table := h.table
  paired := h.paired.mono hle
  small := h.small
  known := h.known

end Twins

end

end NodeWatch.Store
