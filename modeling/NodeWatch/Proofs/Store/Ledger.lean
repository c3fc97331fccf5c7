import NodeWatch.Proofs.Store.Records
import NodeWatch.Proofs.Store.Sql.Row
import NodeWatch.Proofs.Time.Order
import NodeWatch.Store.Repository

/-!
A store as the list of the records that can be read from it.

A ledger answers the calls of a store and knows nothing of rows, texts and faults. The two kinds of
store differ in little that can be noticed: a table reads numbers that are too large as zero, keeps
only times with a plain year, and tells of two clashes the one of the names. Which one a store in
memory tells depends on where its hash table puts the records.
-/

namespace NodeWatch.Store

/-- What keeps the records. In memory it is a hash table. -/
inductive Medium where
  | memory (hashing : Hashing)
  | table

namespace Medium

/-- A record that is written, as it will be read. -/
def read : Medium → Record → Record
  | memory _, r => r
  | table, r => r.asRead

/-- A time that is written will be read. -/
def Keeps : Medium → Time.Instant → Prop
  | memory _, _ => True
  | table, t => t.HasPlainYear

/-- What is told of a record that shares its name or its address with another live one. In memory
even a deleted record is compared with the live ones. -/
def clash? (m : Medium) (rs : List Record) (r : Record) : Option Unique :=
  let others := rs.filter fun s => s.isLive && s.id ≠ r.id
  match m with
  | memory hashing =>
    (inPlaces (hashing (rs.map (·.id))) (·.id) others).findSome? fun s =>
      if s.address = r.address then some .ip else if s.name = r.name then some .name else none
  | table =>
    if !r.isLive then none
    else if others.any fun s => s.name = r.name then some .name
    else if others.any fun s => s.address = r.address then some .ip
    else none

/-- The record after an update, as it will be read. -/
def revise (m : Medium) (now : Time.Instant) (p : Patch) (r : Record) : Record :=
  m.read { p.apply r with version := r.version + 1, updatedAt := now }

end Medium

/-- The record after an update, as it is told. -/
def Record.revised (now : Time.Instant) (p : Patch) (r : Record) : Record :=
  { p.apply r with version := r.version + 1, updatedAt := now }

/-- An update does not take a sign of life back. -/
lemma Record.lastSeen_le_revised (now : Time.Instant) (p : Patch) (r : Record) :
    r.lastSeen ≤ (r.revised now p).lastSeen := by
  cases hp : p.lastSeen with
  | none => simpa [revised, Patch.apply, hp] using Time.Instant.le_refl r.lastSeen
  | some u => simpa [revised, Patch.apply, hp] using Time.Instant.le_latest_left r.lastSeen u

/-- The record after it was deleted. -/
def Record.deleted (now : Time.Instant) (r : Record) : Record :=
  { r with deletedAt := some now, updatedAt := now, version := r.version + 1 }

/-- The record after a sign of life. -/
def Record.touched (t : Time.Instant) (r : Record) : Record :=
  { r with lastSeen := r.lastSeen.latest t }

lemma Record.asRead_touched (t : Time.Instant) (o : Record) :
    (touched t o).asRead = touched t o.asRead := by
  obtain ⟨x, v, h, h'⟩ := asRead_congr o (touched t o) rfl rfl
  rw [h, h']
  rfl

/-- A call, and what is taken from outside for it. -/
structure Request where
  stamp : Stamp
  op : Operation

structure Ledger where
  medium : Medium
  made : Nat
  records : List Record

namespace Ledger

/-- The ledger with the record of an identity changed. -/
def amend (l : Ledger) (id : String) (f : Record → Record) : Ledger :=
  { l with records := Store.amend id f l.records }

/-- The ledger with one more record. -/
def add (l : Ledger) (r : Record) : Ledger :=
  { l with made := l.made + 1, records := l.records ++ [l.medium.read r] }

/-- The record that is made next. -/
def next (l : Ledger) (now : Time.Instant) (n : NewRecord) : Record :=
  n.toRecord ⟨Repository.identity (l.made + 1), now⟩

def clashError (r : Record) : Unique → Error
  | .ip => .duplicate .ip r.address.toString
  | u => .duplicate u r.name

def step (now : Time.Instant) (op : Operation) (l : Ledger) : op.Answer × Ledger :=
  match op with
  | .findByAddress a => (.ok (liveAt l.records a), l)
  | .findByName n => (.ok (l.records.find? fun r => r.isLive && r.name = n), l)
  | .create n =>
    match l.medium.clash? l.records (l.next now n) with
    | some u => (.error (clashError (l.next now n) u), l)
    | none => (.ok (l.next now n), l.add (l.next now n))
  | .update id expected p =>
    match withId l.records id with
    | none => (.error (.notFound id), l)
    | some r =>
      if r.version ≠ expected then (.error (.conflict id expected r.version), l)
      else if maxVersion ≤ r.version then (.error .versionOverflow, l)
      else
        match l.medium.clash? l.records (p.apply r) with
        | some u => (.error (clashError (p.apply r) u), l)
        | none =>
          (.ok { p.apply r with version := r.version + 1, updatedAt := now },
            l.amend id (l.medium.revise now p))
  | .touch id t =>
    match withId l.records id with
    | none => (.error (.notFound id), l)
    | some _ => (.ok (), l.amend id (Record.touched t))
  | .get id => (.ok (withId l.records id), l)
  | .list => (.ok (sortByName (l.records.filter (·.isLive))), l)
  | .delete id =>
    match withId l.records id with
    | none => (.ok false, l)
    | some r =>
      if r.isLive then
        if maxVersion ≤ r.version then (.error .versionOverflow, l)
        else (.ok true, l.amend id fun r => l.medium.read { r with
          deletedAt := some now, updatedAt := now, version := r.version + 1 })
      else (.ok false, l)

/-- Nothing is broken, and the next identities are new. -/
structure Sound (l : Ledger) : Prop where
  orderly : Orderly l.records
  fresh : ∀ k, l.made < k → ∀ r ∈ l.records, r.id ≠ Repository.identity k
  small : l.medium = .table → ∀ r ∈ l.records, r.version < 2 ^ 63

end Ledger

/-- The calls that change a record in place or add one, without deleting or renaming, with times
that can be kept. -/
def Operation.Plain (m : Medium) : Operation → Prop
  | .findByAddress _ | .get _ => True
  | .create n => m.Keeps n.lastSeen
  | .update _ _ p => p.name = none ∧ ∀ t, p.lastSeen = some t → m.Keeps t
  | .touch _ t => m.Keeps t
  | .findByName _ | .list | .delete _ => False

/-! ### Changes and keys -/

section

variable (m : Medium) (r : Record)

/-- Only numbers may be read as others. -/
lemma Medium.read_eq : ∃ x v, m.read r = { r with memoryMb := x, version := v } := by
  cases m with
  | memory _ => exact ⟨r.memoryMb, r.version, rfl⟩
  | table => exact ⟨_, _, rfl⟩

@[simp] lemma Medium.read_id : (m.read r).id = r.id := by
  obtain ⟨x, v, h⟩ := m.read_eq r
  rw [h]
@[simp] lemma Medium.read_name : (m.read r).name = r.name := by
  obtain ⟨x, v, h⟩ := m.read_eq r
  rw [h]
@[simp] lemma Medium.read_address : (m.read r).address = r.address := by
  obtain ⟨x, v, h⟩ := m.read_eq r
  rw [h]
@[simp] lemma Medium.read_createdAt : (m.read r).createdAt = r.createdAt := by
  obtain ⟨x, v, h⟩ := m.read_eq r
  rw [h]
@[simp] lemma Medium.read_deletedAt : (m.read r).deletedAt = r.deletedAt := by
  obtain ⟨x, v, h⟩ := m.read_eq r
  rw [h]
@[simp] lemma Medium.read_status : (m.read r).status = r.status := by
  obtain ⟨x, v, h⟩ := m.read_eq r
  rw [h]
@[simp] lemma Medium.read_architecture : (m.read r).architecture = r.architecture := by
  obtain ⟨x, v, h⟩ := m.read_eq r
  rw [h]
@[simp] lemma Medium.read_model : (m.read r).model = r.model := by
  obtain ⟨x, v, h⟩ := m.read_eq r
  rw [h]
@[simp] lemma Medium.read_lastSeen : (m.read r).lastSeen = r.lastSeen := by
  obtain ⟨x, v, h⟩ := m.read_eq r
  rw [h]
@[simp] lemma Medium.read_isLive : (m.read r).isLive = r.isLive := by
  simp [Record.isLive]
@[simp] lemma Medium.read_key : (m.read r).key = r.key := by
  simp [Record.key]

end

lemma keepsKey_touched (t : Time.Instant) : KeepsKey (Record.touched t) := fun _ => rfl

lemma Medium.read_touched (m : Medium) (t : Time.Instant) (r : Record) :
    m.read (r.touched t) = (m.read r).touched t := by
  cases m with
  | memory _ => rfl
  | table => exact Record.asRead_touched t r

lemma keepsKey_revised (now : Time.Instant) {p : Patch} (hp : p.name = none) :
    KeepsKey (Record.revised now p) := by
  intro r
  simp [Record.revised, Record.key, Patch.apply, hp, Record.isLive]

lemma Medium.keepsKey_revise (m : Medium) (now : Time.Instant) {p : Patch} (hp : p.name = none) :
    KeepsKey (m.revise now p) := fun r =>
  (m.read_key (r.revised now p)).trans (keepsKey_revised now hp r)

/-! ### Clashes -/

namespace Medium

variable {m : Medium} {rs : List Record} {r new : Record}

/-- A record that is like no other live one clashes with nothing. -/
lemma clash?_eq_none (h : ∀ s ∈ rs, s.isLive = true → s.id ≠ r.id →
    ¬ (s.address = r.address ∨ s.name = r.name)) : m.clash? rs r = none := by
  have hothers : ∀ s ∈ rs.filter fun s => s.isLive && s.id ≠ r.id,
      s.address ≠ r.address ∧ s.name ≠ r.name := by
    intro s hs
    simp only [List.mem_filter, Bool.and_eq_true, decide_eq_true_eq] at hs
    exact not_or.mp (h s hs.1 hs.2.1 hs.2.2)
  unfold clash?
  cases m with
  | memory hashing =>
    refine List.findSome?_eq_none_iff.mpr fun s hs => ?_
    have hs := (mem_inPlaces _ _).mp hs
    rw [if_neg (hothers s hs).1, if_neg (hothers s hs).2]
  | table =>
    simp only
    split
    · rfl
    · rw [if_neg, if_neg]
      · intro hc
        obtain ⟨s, hs, hc⟩ := List.any_eq_true.mp hc
        exact (hothers s hs).1 (by simpa using hc)
      · intro hc
        obtain ⟨s, hs, hc⟩ := List.any_eq_true.mp hc
        exact (hothers s hs).2 (by simpa using hc)

/-- What is told of a clash is true. -/
lemma clash?_eq_some {u : Unique} (h : m.clash? rs r = some u) :
    ∃ s ∈ rs, s.isLive = true ∧ s.id ≠ r.id ∧
      (u = .ip ∧ s.address = r.address ∨ u = .name ∧ s.name = r.name) := by
  have hmem : ∀ s ∈ rs.filter fun s => s.isLive && s.id ≠ r.id,
      s ∈ rs ∧ s.isLive = true ∧ s.id ≠ r.id := by
    intro s hs
    simpa only [List.mem_filter, Bool.and_eq_true, decide_eq_true_eq] using hs
  unfold clash? at h
  cases m with
  | memory hashing =>
    obtain ⟨s, hs, hu⟩ := List.exists_of_findSome?_eq_some h
    obtain ⟨hsm, hl, hne⟩ := hmem s ((mem_inPlaces _ _).mp hs)
    refine ⟨s, hsm, hl, hne, ?_⟩
    split at hu
    next ha => exact .inl ⟨(Option.some.inj hu).symm, ha⟩
    next =>
      split at hu
      next hn => exact .inr ⟨(Option.some.inj hu).symm, hn⟩
      next => simp at hu
  | table =>
    simp only at h
    split at h
    · simp at h
    · split at h
      next hc =>
        obtain ⟨s, hs, hc⟩ := List.any_eq_true.mp hc
        obtain ⟨hsm, hl, hne⟩ := hmem s hs
        exact ⟨s, hsm, hl, hne, .inr ⟨(Option.some.inj h).symm, by simpa using hc⟩⟩
      next =>
        split at h
        next hc =>
          obtain ⟨s, hs, hc⟩ := List.any_eq_true.mp hc
          obtain ⟨hsm, hl, hne⟩ := hmem s hs
          exact ⟨s, hsm, hl, hne, .inl ⟨(Option.some.inj h).symm, by simpa using hc⟩⟩
        next => simp at h

/-- No clash is left out, but those of deleted records in a table. -/
lemma free_of_clash?_eq_none (hl : m ≠ .table ∨ r.isLive = true) (h : m.clash? rs r = none) :
    ∀ s ∈ rs, s.isLive = true → s.id ≠ r.id → ¬ (s.address = r.address ∨ s.name = r.name) := by
  intro s hs hsl hid hk
  have hmem : s ∈ rs.filter fun s => s.isLive && s.id ≠ r.id := by simp [hs, hsl, hid]
  unfold clash? at h
  cases m with
  | memory hashing =>
    have := List.findSome?_eq_none_iff.mp h s ((mem_inPlaces _ _).mpr hmem)
    split at this
    · simp at this
    next ha =>
      rw [if_pos (hk.resolve_left ha)] at this
      simp at this
  | table =>
    simp only [hl.resolve_left fun hm => hm rfl, Bool.not_true, Bool.false_eq_true, if_false] at h
    split at h
    · simp at h
    next hn =>
      split at h
      · simp at h
      next ha =>
        rcases hk with hk | hk
        · exact ha (List.any_eq_true.mpr ⟨s, hmem, by simp [hk]⟩)
        · exact hn (List.any_eq_true.mpr ⟨s, hmem, by simp [hk]⟩)

lemma clash?_eq_none_iff (hl : m ≠ .table ∨ r.isLive = true) : m.clash? rs r = none ↔
    ∀ s ∈ rs, s.isLive = true → s.id ≠ r.id → ¬ (s.address = r.address ∨ s.name = r.name) :=
  ⟨free_of_clash?_eq_none hl, clash?_eq_none⟩

lemma not_taken_of_clash?_eq_none (hl : r.isLive = true) (hid : ∀ s ∈ rs, s.id ≠ r.id)
    (h : m.clash? rs r = none) : ¬ Taken rs r.name r.address := by
  rintro ⟨s, hs, hsl, hk⟩
  exact free_of_clash?_eq_none (.inr hl) h s hs hsl (hid s hs) hk

/-- If only the name is taken, it is the name that clashes. -/
lemma clash?_of_named (hl : r.isLive = true) (hid : ∀ x ∈ rs, x.id ≠ r.id)
    (ha : ¬ ∃ x ∈ rs, x.isLive = true ∧ x.address = r.address)
    (hn : ∃ x ∈ rs, x.isLive = true ∧ x.name = r.name) : m.clash? rs r = some .name := by
  obtain ⟨y, hy, hyl, hyn⟩ := hn
  cases hclash : m.clash? rs r with
  | none => exact absurd ⟨y, hy, hyl, .inr hyn⟩ (not_taken_of_clash?_eq_none hl hid hclash)
  | some u =>
    obtain ⟨x, hx, hxl, -, ⟨-, hxa⟩ | ⟨rfl, -⟩⟩ := clash?_eq_some hclash
    · exact absurd ⟨x, hx, hxl, hxa⟩ ha
    · rfl

/-- Only the live records count, and where they are. -/
lemma clash?_congr {os : List Record} (h : rs.filter (·.isLive) = os.filter (·.isLive))
    (hids : rs.map (·.id) = os.map (·.id)) : m.clash? rs r = m.clash? os r := by
  have hothers : ∀ l : List Record, l.filter (fun s => s.isLive && s.id ≠ r.id) =
      (l.filter (·.isLive)).filter (fun s => s.id ≠ r.id) := by
    intro l
    rw [List.filter_filter]
    congr 1
    funext s
    rw [Bool.and_comm]
  unfold clash?
  rw [hothers rs, hothers os, h, hids]

/-- In a table the order of the others does not count either. -/
lemma clash?_table_congr {os : List Record}
    (h : ∀ s, s.isLive = true → s.id ≠ r.id → (s ∈ rs ↔ s ∈ os)) :
    Medium.table.clash? rs r = Medium.table.clash? os r := by
  have hany : ∀ p : Record → Bool,
      (rs.filter fun s => s.isLive && s.id ≠ r.id).any p =
        (os.filter fun s => s.isLive && s.id ≠ r.id).any p := by
    intro p
    rw [Bool.eq_iff_iff]
    simp only [List.any_eq_true, List.mem_filter, Bool.and_eq_true, decide_eq_true_eq]
    exact exists_congr fun s => and_congr_left fun _ =>
      and_congr_left fun hs => h s hs.1 hs.2
  simp only [clash?, hany]

/-- Clashes are told by the keys alone. -/
lemma clash?_map {f : Record → Record} (hf : KeepsKey f) :
    m.clash? (rs.map f) r = m.clash? rs r := by
  have hfilter : (rs.map f).filter (fun s => s.isLive && s.id ≠ r.id) =
      (rs.filter fun s => s.isLive && s.id ≠ r.id).map f := by
    rw [List.filter_map]
    congr 2
    funext s
    simp [hf.isLive_eq, hf.id_eq]
  have hids : (rs.map f).map (·.id) = rs.map (·.id) := by
    rw [List.map_map]
    exact List.map_congr_left fun s _ => hf.id_eq s
  unfold clash?
  rw [hfilter, hids]
  cases m with
  | memory hashing =>
    simp only [inPlaces_map _ _ hf.id_eq, List.findSome?_map, Function.comp_def, hf.address_eq,
      hf.name_eq]
  | table =>
    simp only [List.any_map, Function.comp_def, hf.address_eq, hf.name_eq]

/-- A change that leaves the key of a live record alone clashes with nothing. -/
lemma clash?_of_key (ho : Orderly rs) (hr : r ∈ rs) (hl : r.isLive = true) (hk : new.key = r.key) :
    m.clash? rs new = none := by
  have hid : new.id = r.id := congrArg Record.Key.id hk
  have ha : new.address = r.address := congrArg Record.Key.address hk
  have hn : new.name = r.name := congrArg Record.Key.name hk
  rw [clash?_eq_none]
  intro s hs hsl hne
  rw [hid] at hne
  rw [ha, hn]
  exact fun h => hne (ho.2 s hs r hr hsl hl h)

/-- In a table a deleted record clashes with nothing. -/
lemma clash?_table_of_dead (h : r.isLive = false) : Medium.table.clash? rs r = none := by
  simp [clash?, h]

lemma clash?_table_of_key (ho : Orderly rs) (hr : r ∈ rs) (hk : new.key = r.key) :
    Medium.table.clash? rs new = none := by
  by_cases hl : r.isLive = true
  · exact clash?_of_key ho hr hl hk
  · have hl' : new.isLive = r.isLive := congrArg Record.Key.live hk
    exact clash?_table_of_dead (by rw [hl']; simpa using hl)

end Medium

/-! ### What calls do -/

namespace Ledger

variable {l : Ledger} {now : Time.Instant}

lemma step_create_clash {n : NewRecord} {u : Unique}
    (h : l.medium.clash? l.records (l.next now n) = some u) :
    l.step now (.create n) = (.error (clashError (l.next now n) u), l) := by
  simp only [Ledger.step, h]

lemma step_create_free {n : NewRecord}
    (h : l.medium.clash? l.records (l.next now n) = none) :
    l.step now (.create n) = (.ok (l.next now n), l.add (l.next now n)) := by
  simp only [Ledger.step, h]

lemma step_touch_of_none {id : String} {t : Time.Instant} (h : withId l.records id = none) :
    l.step now (.touch id t) = (.error (.notFound id), l) := by
  simp only [Ledger.step, h]

lemma step_update_of_none {id : String} {v : Nat} {p : Patch} (h : withId l.records id = none) :
    l.step now (.update id v p) = (.error (.notFound id), l) := by
  simp only [Ledger.step, h]

lemma step_touch {id : String} {t : Time.Instant} {r : Record} (h : withId l.records id = some r) :
    l.step now (.touch id t) = (.ok (), l.amend id (Record.touched t)) := by
  simp only [Ledger.step, h]

lemma step_update_conflict {id : String} {v : Nat} {p : Patch} {r : Record}
    (h : withId l.records id = some r) (hv : r.version ≠ v) :
    l.step now (.update id v p) = (.error (.conflict id v r.version), l) := by
  simp only [Ledger.step, h]
  rw [if_pos hv]

lemma step_update_overflow {id : String} {p : Patch} {r : Record}
    (h : withId l.records id = some r) (hmax : maxVersion ≤ r.version) :
    l.step now (.update id r.version p) = (.error .versionOverflow, l) := by
  simp only [Ledger.step, h]
  rw [if_neg (by simp), if_pos hmax]

lemma step_update_clash {id : String} {p : Patch} {r : Record} {u : Unique}
    (h : withId l.records id = some r) (hmax : ¬ maxVersion ≤ r.version)
    (hc : l.medium.clash? l.records (p.apply r) = some u) :
    l.step now (.update id r.version p) = (.error (clashError (p.apply r) u), l) := by
  simp only [Ledger.step, h]
  rw [if_neg (by simp), if_neg hmax]
  simp only [hc]

lemma step_update_free {id : String} {p : Patch} {r : Record}
    (h : withId l.records id = some r) (hmax : ¬ maxVersion ≤ r.version)
    (hc : l.medium.clash? l.records (p.apply r) = none) :
    l.step now (.update id r.version p) =
      (.ok { p.apply r with version := r.version + 1, updatedAt := now },
        l.amend id (l.medium.revise now p)) := by
  simp only [Ledger.step, h]
  rw [if_neg (by simp), if_neg hmax]
  simp only [hc]

/-- An update of a live record that leaves its key alone. -/
lemma Sound.step_update (hs : l.Sound) (now : Time.Instant) {p : Patch} (hp : p.name = none)
    {r : Record} (h : r ∈ l.records) (hl : r.isLive = true) (hmax : ¬ maxVersion ≤ r.version) :
    l.step now (.update r.id r.version p) =
      (.ok { p.apply r with version := r.version + 1, updatedAt := now },
        l.amend r.id (l.medium.revise now p)) := by
  refine step_update_free (hs.orderly.withId_of_mem h) hmax ?_
  refine Medium.clash?_of_key hs.orderly h hl ?_
  simp [Record.key, Patch.apply, hp, Record.isLive]

/-! ### Soundness is kept -/

lemma Sound.amend (h : l.Sound) {f : Record → Record} (hf : KeepsKey f) (id : String)
    (hsmall : l.medium = .table → ∀ r, r.version < 2 ^ 63 → (f r).version < 2 ^ 63) :
    (l.amend id f).Sound where
  orderly := h.orderly.amend hf id
  fresh := by
    intro k hk r hr
    obtain ⟨s, hs, rfl⟩ := mem_amend.mp hr
    rw [(keepsKey_ite hf id).id_eq s]
    exact h.fresh k hk s hs
  small := by
    intro hm r hr
    obtain ⟨s, hs, rfl⟩ := mem_amend.mp hr
    split
    · exact hsmall hm s (h.small hm s hs)
    · exact h.small hm s hs

lemma identity_injective {j k : Nat} (h : Repository.identity j = Repository.identity k) :
    j = k := by
  unfold Repository.identity at h
  have hd : Text.decimal j = Text.decimal k := by
    have := congrArg String.toList h
    simpa [String.toList_append] using this
  have hvalue : ∀ n, Text.valueFrom 10 0 (Text.digits 10 n) = n :=
    Text.valueFrom_digits (by omega) (by omega)
  rw [← hvalue j, ← hvalue k]
  exact congrArg _ hd

lemma next_isLive (l : Ledger) (now : Time.Instant) (n : NewRecord) :
    (l.next now n).isLive = true := rfl

lemma Sound.next_id (h : l.Sound) (now : Time.Instant) (n : NewRecord) :
    ∀ r ∈ l.records, r.id ≠ (l.next now n).id :=
  h.fresh _ (Nat.lt_succ_self _)

lemma Sound.add (h : l.Sound) {now : Time.Instant} {n : NewRecord}
    (hfree : l.medium.clash? l.records (l.next now n) = none) :
    (l.add (l.next now n)).Sound where
  orderly := by
    refine h.orderly.append (fun s hs => ?_) fun _ => ?_
    · rw [Medium.read_id]
      exact h.next_id now n s hs
    · rw [Medium.read_name, Medium.read_address]
      exact Medium.not_taken_of_clash?_eq_none (next_isLive l now n) (h.next_id now n) hfree
  fresh := by
    intro k hk r hr
    have hlt : l.made + 1 < k := hk
    simp only [Ledger.add, List.mem_append, List.mem_singleton] at hr
    rcases hr with hr | rfl
    · exact h.fresh k (by omega) r hr
    · rw [Medium.read_id]
      intro he
      have := identity_injective he
      omega
  small := by
    intro hm r hr
    simp only [Ledger.add, List.mem_append, List.mem_singleton] at hr
    rcases hr with hr | rfl
    · exact h.small hm r hr
    · rw [show l.medium = .table from hm, Medium.read]
      exact Sql.asRead_version_lt _

lemma revise_small {m : Medium} (hm : m = .table) (now : Time.Instant) (p : Patch) (r : Record) :
    (m.revise now p r).version < 2 ^ 63 := by
  rw [hm, Medium.revise, Medium.read]
  exact Sql.asRead_version_lt _

lemma Sound.step (h : l.Sound) (now : Time.Instant) {op : Operation} (hop : op.Plain l.medium) :
    (l.step now op).2.Sound := by
  cases op with
  | findByAddress a => exact h
  | get id => exact h
  | create n =>
    simp only [Ledger.step]
    split
    · exact h
    next hc => exact h.add hc
  | update id expected p =>
    simp only [Ledger.step]
    split
    · exact h
    · split
      · exact h
      · split
        · exact h
        · split
          · exact h
          · exact h.amend (l.medium.keepsKey_revise now hop.1) id fun hm r _ =>
              revise_small hm now p r
  | touch id t =>
    simp only [Ledger.step]
    split
    · exact h
    · exact h.amend (keepsKey_touched t) id fun _ _ hv => hv
  | findByName n => exact hop.elim
  | list => exact hop.elim
  | delete id => exact hop.elim

lemma medium_step (now : Time.Instant) (op : Operation) (l : Ledger) :
    (l.step now op).2.medium = l.medium := by
  unfold Ledger.step
  repeat' split
  all_goals rfl

end Ledger

end NodeWatch.Store
