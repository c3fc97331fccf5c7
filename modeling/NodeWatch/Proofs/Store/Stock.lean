import Mathlib.Data.List.Induction
import NodeWatch.Proofs.Program
import NodeWatch.Proofs.Store.Backing

/-!
A store in working order, told from what is written in it. Every store that calls have made out of
an empty one is of this kind.
-/

namespace NodeWatch.Store

/-- By its answer the call counts as a write. -/
def Operation.counts : (op : Operation) → op.Answer → Bool
  | .create _, .ok _ | .update .., .ok _ => true
  | .delete _, .ok b => b
  | _, _ => false

/-- What a store in working order consists of. Only a table may be in a file, and only a store in
memory counts its writes. -/
structure Stock where
  medium : Medium
  inFile : Bool := false
  writes : Nat := 0
  made : Nat := 0
  records : List Record := []

namespace Stock

def backing (s : Stock) : Backing :=
  match s.medium with
  | .memory hashing => .memory { records := s.records, writes := s.writes, hashing }
  | .table => .table { rows := s.records.map Sql.Row.ofRecord } s.inFile

/-- The store itself. -/
def store (s : Stock) : Repository := ⟨s.backing, s.made⟩

/-- What a call takes from outside. -/
def stamp (s : Stock) (now : Time.Instant) : Stamp := ⟨Repository.identity (s.made + 1), now⟩

def step (now : Time.Instant) (op : Operation) (s : Stock) : op.Answer × Stock :=
  let (a, records) := s.medium.answer (s.stamp now) op s.records
  (a, { s with
    writes := if op.counts a then s.writes + 1 else s.writes
    made := if Repository.hasMade op a then s.made + 1 else s.made
    records := records })

/-- Nothing is broken, and the next identities are new. -/
structure Sound (s : Stock) : Prop where
  orderly : Orderly s.records
  fresh : ∀ k, s.made < k → ∀ r ∈ s.records, r.id ≠ Repository.identity k

/-- No record has been written more than `n` times. -/
def Young (n : Nat) (s : Stock) : Prop := ∀ r ∈ s.records, r.version ≤ n

variable {s : Stock} {now : Time.Instant} {op : Operation} {n : Nat}

lemma has_backing (s : Stock) : s.backing.Has s.medium s.records := by
  obtain ⟨m, inFile, writes, made, records⟩ := s
  cases m with
  | memory _ => exact .memory ⟨rfl, rfl, rfl, rfl⟩
  | table => exact .table ⟨rfl, rfl, rfl, rfl⟩

end Stock

/-! ### Calls -/

/-- A store in memory counts the writes. -/
lemma Memory.writes_answer {st : Stamp} {op : Operation} {m m' : Memory} {a : op.Answer}
    (h : m.answer st op = (a, m')) :
    m'.writes = if op.counts a then m.writes + 1 else m.writes := by
  cases op with
  | findByAddress _ | findByName _ | get _ | list =>
    obtain ⟨rfl, rfl⟩ := Prod.mk.inj h
    rfl
  | create w =>
    simp only [Memory.answer] at h
    split at h <;> obtain ⟨rfl, rfl⟩ := Prod.mk.inj h <;> rfl
  | update id v p =>
    simp only [Memory.answer] at h
    split at h
    · obtain ⟨rfl, rfl⟩ := Prod.mk.inj h
      rfl
    · split at h
      · obtain ⟨rfl, rfl⟩ := Prod.mk.inj h
        rfl
      · split at h
        · obtain ⟨rfl, rfl⟩ := Prod.mk.inj h
          rfl
        · split at h <;> obtain ⟨rfl, rfl⟩ := Prod.mk.inj h <;> rfl
  | touch id u =>
    simp only [Memory.answer] at h
    split at h <;> obtain ⟨rfl, rfl⟩ := Prod.mk.inj h <;> rfl
  | delete id =>
    simp only [Memory.answer] at h
    split at h
    · split at h
      · split at h <;> obtain ⟨rfl, rfl⟩ := Prod.mk.inj h <;> rfl
      · obtain ⟨rfl, rfl⟩ := Prod.mk.inj h
        rfl
    · obtain ⟨rfl, rfl⟩ := Prod.mk.inj h
      rfl

lemma Memory.Keeps.writes_step {m : Memory} {k : Hashing} {rs : List Record} (h : m.Keeps k rs)
    (st : Stamp) (op : Operation) : (m.step st op).2.writes =
      if op.counts (m.step st op).1 then m.writes + 1 else m.writes := by
  rw [h.step]
  exact writes_answer rfl

namespace Stock

variable {s : Stock} {now : Time.Instant} {op : Operation} {n : Nat}

/-- A store that has records is what it consists of. -/
lemma eq_backing_memory {m : Memory} {k : Hashing} {rs : List Record}
    (h : (Backing.memory m).Has (.memory k) rs) :
    m = { records := rs, writes := m.writes, hashing := k } := by
  cases h with
  | memory keeps =>
    obtain ⟨records, offline, failures, writes, hashing⟩ := m
    obtain ⟨rfl, rfl, rfl, rfl⟩ := keeps
    rfl

lemma eq_backing_table {t : Sql.Table} {inFile : Bool} {rs : List Record}
    (h : (Backing.table t inFile).Has .table rs) : t = { rows := rs.map Sql.Row.ofRecord } := by
  cases h with
  | table keeps =>
    obtain ⟨rows, there, insertsBlocked, updatesBlocked⟩ := t
    obtain ⟨rfl, rfl, rfl, rfl⟩ := keeps
    rfl

lemma backing_step (h : s.Sound) (hadm : s.medium.Admits (s.stamp now) s.records op) :
    s.backing.step (s.stamp now) op = ((s.step now op).1, (s.step now op).2.backing) := by
  obtain ⟨ha, hk⟩ := s.has_backing.step h.orderly hadm
  obtain ⟨m, inFile, writes, made, records⟩ := s
  refine Prod.ext ha ?_
  cases m with
  | memory k =>
    have keeps : Memory.Keeps { records, writes, hashing := k } k records := ⟨rfl, rfl, rfl, rfl⟩
    have hwrites := (keeps.writes_step _ op).trans
      (congrArg (fun a => if op.counts a then writes + 1 else writes) ha)
    change Backing.memory _ = Backing.memory _
    rw [eq_backing_memory hk]
    exact congrArg (fun n => Backing.memory { records := _, writes := n, hashing := k }) hwrites
  | table =>
    change Backing.table _ inFile = Backing.table _ inFile
    rw [eq_backing_table hk]
    rfl

/-- **A call on a store is a call on what it consists of.** -/
theorem store_step (h : s.Sound) (hadm : s.medium.Admits (s.stamp now) s.records op) :
    s.store.step now op = ((s.step now op).1, (s.step now op).2.store) := by
  have hstep : s.store.backing.step ⟨Repository.identity (s.store.made + 1), now⟩ op =
      ((s.step now op).1, (s.step now op).2.backing) := backing_step h hadm
  rw [Repository.step_eq, hstep]
  rfl

lemma makes_step (now : Time.Instant) (op : Operation) (s : Stock) :
    s.medium.Makes (s.stamp now) s.records op (s.step now op).1 (s.step now op).2.records :=
  s.medium.makes_answer (s.stamp now) op s.records

@[simp] lemma medium_step (now : Time.Instant) (op : Operation) (s : Stock) :
    (s.step now op).2.medium = s.medium := rfl

lemma made_le_step (now : Time.Instant) (op : Operation) (s : Stock) :
    s.made ≤ (s.step now op).2.made := by
  change s.made ≤ if Repository.hasMade op (s.step now op).1 then s.made + 1 else s.made
  split
  · exact Nat.le_succ _
  · exact Nat.le_refl _

lemma made_step_of_adds {r : Record} (h : op.Adds (s.step now op).1 r) :
    (s.step now op).2.made = s.made + 1 := by
  have hmade : Repository.hasMade op (s.step now op).1 = true := by
    cases op with
    | create w =>
      generalize (s.step now (.create w)).1 = a at h
      cases a with
      | ok x => rfl
      | error e => exact h.elim
    | _ => exact h.elim
  exact if_pos hmade

lemma Sound.step (h : s.Sound) (hadm : s.medium.Admits (s.stamp now) s.records op) :
    (s.step now op).2.Sound where
  orderly := (s.makes_step now op).orderly h.orderly hadm
  fresh := by
    intro k hk r hr
    have hle := s.made_le_step now op
    rcases (s.makes_step now op).made r hr with ⟨x, hx, hid⟩ | ⟨hadds, w, -, rfl⟩
    · rw [← hid]
      exact h.fresh k (by omega) x hx
    · rw [made_step_of_adds hadds] at hk
      intro he
      have := Ledger.identity_injective he
      omega

lemma Young.step (hy : s.Young n) (h : s.Sound)
    (hadm : s.medium.Admits (s.stamp now) s.records op) (hroom : s.medium = .table → n < 2 ^ 63) :
    (s.step now op).2.Young (n + 1) := by
  intro r hr
  have hsmall : s.medium = .table → ∀ x ∈ s.records, x.version < 2 ^ 63 := fun hm x hx =>
    Nat.lt_of_le_of_lt (hy x hx) (hroom hm)
  rcases (s.makes_step now op).comes h.orderly hadm hsmall r hr with
    ⟨x, hx, hgrows⟩ | ⟨-, w, -, rfl⟩
  · have := hy x hx
    have := hgrows.version_le
    omega
  · exact Nat.le_add_left 1 n

/-- With room for one more version every call is admitted. -/
lemma Young.admits (hy : s.Young n) (h : s.Sound) (hroom : s.medium = .table → n + 1 < 2 ^ 63)
    (now : Time.Instant) (op : Operation) : s.medium.Admits (s.stamp now) s.records op := by
  cases op with
  | create w => exact h.fresh _ (Nat.lt_succ_self _)
  | delete id =>
    intro hm r hr _
    have := hy r hr
    have := hroom hm
    omega
  | _ => exact trivial

/-- What no deletion is among is always admitted. -/
lemma Sound.admits (h : s.Sound) {k : Hashing} (hop : op.Plain (.memory k)) (now : Time.Instant) :
    s.medium.Admits (s.stamp now) s.records op := by
  cases op with
  | create w => exact h.fresh _ (Nat.lt_succ_self _)
  | delete id => exact hop.elim
  | _ => exact trivial

/-- What is found at an address. -/
lemma Sound.step_find (h : s.Sound) (now : Time.Instant) (a : Net.Address) :
    (s.store.step now (.findByAddress a)).1 = s.medium.tell? (liveAt s.records a) := by
  have hadm : s.medium.Admits (s.stamp now) s.records (.findByAddress a) := trivial
  rw [store_step h hadm]
  rfl

/-- What is found under an identity. -/
lemma Sound.step_get (h : s.Sound) (now : Time.Instant) (id : String) :
    (s.store.step now (.get id)).1 = s.medium.tell? (withId s.records id) := by
  have hadm : s.medium.Admits (s.stamp now) s.records (.get id) := trivial
  rw [store_step h hadm]
  rfl

/-- Programs without deletions meet a store as what it consists of. -/
lemma alike (k : Hashing) (now : Time.Instant) : Program.Alike (Operation.Plain (.memory k))
    (fun r s => r = store s ∧ s.Sound) (Repository.step now) (Stock.step now) := by
  rintro op _ s hop ⟨rfl, h⟩
  have hadm := h.admits hop now
  rw [store_step h hadm]
  exact ⟨rfl, rfl, h.step hadm⟩

end Stock

/-! ### What becomes of a live record -/

namespace Stock

/-- The record of an identity has given a sign of life. -/
def touch (id : String) (t : Time.Instant) (s : Stock) : Stock :=
  { s with records := amend id (Record.touched t) s.records }

/-- A record is written in the place of the one with its identity. -/
def rewrite (r : Record) (s : Stock) : Stock :=
  { s with writes := s.writes + 1, records := amend r.id (fun _ => r) s.records }

/-- One more record is written. -/
def add (r : Record) (s : Stock) : Stock :=
  { s with writes := s.writes + 1, made := s.made + 1, records := s.records ++ [r] }

variable {s : Stock} {now : Time.Instant} {r told : Record} {p : Patch} {n : NewRecord}
  (h : s.Sound)
include h

section

variable (hr : r ∈ s.records) (ht : s.medium.tell r = .ok told)
include hr ht

lemma Sound.withId_told : withId s.records told.id = some r := by
  rw [Medium.tell_id ht]
  exact h.orderly.withId_of_mem hr

lemma Sound.step_touch (now t : Time.Instant) :
    s.step now (.touch told.id t) = (.ok (), s.touch told.id t) := by
  have hanswer := Medium.answer_touch (s := s.stamp now) (u := t) (h.withId_told hr ht) ht
  simp only [Stock.step, hanswer]
  rfl

omit ht in
/-- A sign of life that is not the latest one is none. -/
lemma Sound.touch_eq_self {t : Time.Instant} (hle : t ≤ r.lastSeen) : s.touch r.id t = s := by
  have hsame : amend r.id (Record.touched t) s.records = s.records := by
    refine amend_eq_self fun x hx hid => ?_
    obtain rfl := h.orderly.eq_of_id hx hr hid
    rw [Record.touched, Time.Instant.latest_eq_left hle]
  rw [Stock.touch, hsame]

lemma Sound.step_update_overflow (now : Time.Instant) (p : Patch)
    (hmax : maxVersion ≤ told.version) :
    s.step now (.update told.id told.version p) = (.error .versionOverflow, s) := by
  have hanswer := Medium.answer_update_overflow (s := s.stamp now) (p := p)
    (h.withId_told hr ht) ht hmax
  simp only [Stock.step, hanswer]
  rfl

/-- A live record that keeps its name clashes with nothing. -/
lemma Sound.step_update (now : Time.Instant) (hl : r.isLive = true) (hp : p.name = none)
    (hmax : ¬ maxVersion ≤ told.version) : s.step now (.update told.id told.version p) =
      (.ok (told.revised now p), s.rewrite (told.revised now p)) := by
  have hfree := Medium.clash?_of_key (m := s.medium) h.orderly hr hl (Medium.key_revised ht now hp)
  have hanswer := Medium.answer_update_free (s := s.stamp now) (p := p)
    (h.withId_told hr ht) ht hmax hfree
  simp only [Stock.step, hanswer]
  rfl

end

omit h in
lemma step_create_free (now : Time.Instant) (hfree : ¬ Taken s.records n.name n.address) :
    s.step now (.create n) =
      (.ok (n.toRecord (s.stamp now)), s.add (n.toRecord (s.stamp now))) := by
  have hclash : s.medium.clash? s.records (n.toRecord (s.stamp now)) = none :=
    Medium.clash?_eq_none fun x hx hl _ hk => hfree ⟨x, hx, hl, hk⟩
  have hanswer := Medium.answer_create_free hclash
  simp only [Stock.step, hanswer]
  rfl

/-- Where nobody has the address, only the name can be taken. -/
lemma Sound.step_create_named (now : Time.Instant) (ha : liveAt s.records n.address = none)
    (hn : ∃ x ∈ s.records, x.isLive = true ∧ x.name = n.name) :
    s.step now (.create n) = (.error (.duplicate .name n.name), s) := by
  have hid : ∀ x ∈ s.records, x.id ≠ (n.toRecord (s.stamp now)).id :=
    h.fresh _ (Nat.lt_succ_self _)
  have hclash : s.medium.clash? s.records (n.toRecord (s.stamp now)) = some .name :=
    Medium.clash?_of_named rfl hid (fun ⟨x, hx, hl, hxa⟩ => liveAt_eq_none ha x hx hl hxa) hn
  simp only [Stock.step, Medium.answer_create_clash hclash]
  rfl

end Stock

/-! ### Stores that calls have made -/

/-- The store after calls, each with its time. -/
def Repository.after (r : Repository) (calls : List (Time.Instant × Operation)) : Repository :=
  calls.foldl (fun r c => (r.step c.1 c.2).2) r

/-- An empty store. -/
inductive Medium.Starts : Medium → Repository → Prop where
  | memory (hashing : Hashing) : Starts (.memory hashing) (.inMemory hashing)
  | table (inFile : Bool) : Starts .table (.inTable inFile)

/-- A store that calls have made of an empty one. In a table there is no room for more versions of
a record than can be counted with 63 bits. -/
def Repository.Reached (r : Repository) (m : Medium)
    (calls : List (Time.Instant × Operation)) : Prop :=
  ∃ r₀, m.Starts r₀ ∧ (m = .table → calls.length < 2 ^ 63) ∧ r = r₀.after calls

lemma Repository.after_concat (r : Repository) (calls : List (Time.Instant × Operation))
    (c : Time.Instant × Operation) :
    r.after (calls ++ [c]) = ((r.after calls).step c.1 c.2).2 := by
  rw [after, List.foldl_append]
  rfl

lemma Medium.Starts.exists_stock {m : Medium} {r : Repository} (h : m.Starts r) :
    ∃ s : Stock, r = s.store ∧ s.medium = m ∧ s.Sound ∧ s.Young 0 := by
  cases h with
  | memory hashing =>
    exact ⟨{ medium := .memory hashing }, rfl, rfl, ⟨orderly_nil, fun _ _ _ h => nomatch h⟩,
      fun _ h => nomatch h⟩
  | table inFile =>
    exact ⟨{ medium := .table, inFile }, rfl, rfl, ⟨orderly_nil, fun _ _ _ h => nomatch h⟩,
      fun _ h => nomatch h⟩

/-- **Every store that was reached is in working order**, and its records are no older than it. -/
theorem Repository.Reached.exists_stock {r : Repository} {m : Medium}
    {calls : List (Time.Instant × Operation)} (h : r.Reached m calls) :
    ∃ s : Stock, r = s.store ∧ s.medium = m ∧ s.Sound ∧ s.Young calls.length := by
  obtain ⟨r₀, hstarts, hroom, rfl⟩ := h
  induction calls using List.reverseRecOn with
  | nil => exact hstarts.exists_stock
  | append_singleton calls c ih =>
    rw [List.length_append, List.length_singleton] at hroom ⊢
    obtain ⟨s, hs, rfl, hsound, hyoung⟩ := ih fun hm => Nat.lt_of_succ_lt (hroom hm)
    have hadm := hyoung.admits hsound hroom c.1 c.2
    refine ⟨(s.step c.1 c.2).2, ?_, rfl, hsound.step hadm,
      hyoung.step hsound hadm fun hm => Nat.lt_of_succ_lt (hroom hm)⟩
    rw [after_concat, hs, Stock.store_step hsound hadm]

end NodeWatch.Store
