import Mathlib.Algebra.Group.Nat.Defs
import Mathlib.Data.List.Basic
import Mathlib.Tactic.Common
import NodeWatch.Proofs.Net.Address
import NodeWatch.Proofs.Time.Instant
import NodeWatch.Store.Sql.Table

/-!
Rows that are made of records, and the records they are read as.

A row gives back the record it was made of, but for numbers that do not fit into 63 bits. It can be
read only if the years of its times have four digits.
-/

namespace NodeWatch.Store

namespace Record

/-- The record that the row of a record is read as. -/
def asRead (o : Record) : Record :=
  { o with
    memoryMb := .ofNat (Sql.signed o.memoryMb.toNat).toNat
    version := (Sql.signed o.version).toNat }

/-- Only two numbers decide which numbers are read. -/
lemma asRead_congr (o o' : Record) (hm : o'.memoryMb = o.memoryMb) (hv : o'.version = o.version) :
    ∃ x v, o.asRead = { o with memoryMb := x, version := v } ∧
      o'.asRead = { o' with memoryMb := x, version := v } := by
  refine ⟨_, _, rfl, ?_⟩
  unfold Record.asRead
  rw [hm, hv]

/-- The times of the record can be written so that they are read back. -/
structure Readable (o : Record) : Prop where
  lastSeen : o.lastSeen.HasPlainYear
  createdAt : o.createdAt.HasPlainYear
  updatedAt : o.updatedAt.HasPlainYear
  deletedAt : ∀ t, o.deletedAt = some t → t.HasPlainYear

end Record

namespace Sql

lemma signed_of_lt {n : Nat} (h : n < 2 ^ 63) : signed n = n := by
  unfold signed
  rw [Int.bmod_eq_of_le] <;> omega

lemma signed_lt (n : Nat) : (signed n).toNat < 2 ^ 63 := by
  have : signed n < (2 ^ 64 + 1) / 2 := Int.bmod_lt (by omega)
  omega

lemma asRead_version_lt (o : Record) : o.asRead.version < 2 ^ 63 := by
  simp only [Record.asRead]
  exact signed_lt o.version

lemma signed_le (n : Nat) : (signed n).toNat ≤ n := by
  unfold signed
  rw [Int.bmod_def]
  split <;> omega

lemma asRead_version_le (o : Record) : o.asRead.version ≤ o.version := by
  simp only [Record.asRead]
  exact signed_le o.version

lemma asRead_version {o : Record} (h : o.version < 2 ^ 63) : o.asRead.version = o.version := by
  unfold Record.asRead
  rw [signed_of_lt h, Int.toNat_natCast]

/-- A record whose numbers are small is read as it was written. -/
lemma asRead_eq_self {o : Record} (hm : o.memoryMb.toNat < 2 ^ 63) (hv : o.version < 2 ^ 63) :
    o.asRead = o := by
  unfold Record.asRead
  rw [signed_of_lt hm, signed_of_lt hv, Int.toNat_natCast, Int.toNat_natCast, UInt64.ofNat_toNat]

lemma asRead_memoryMb_lt (o : Record) : o.asRead.memoryMb.toNat < 2 ^ 63 := by
  have := signed_lt o.memoryMb.toNat
  simp only [Record.asRead]
  rw [UInt64.toNat_ofNat', Nat.mod_eq_of_lt (by omega)]
  exact this

lemma signed_succ_mod {n : Nat} (h : n < 2 ^ 63) :
    (signed (n + 1)).toNat % 2 ^ 63 = (n + 1) % 2 ^ 63 := by
  by_cases hn : n + 1 < 2 ^ 63
  · rw [signed_of_lt hn, Int.toNat_natCast]
  · obtain rfl : n = 2 ^ 63 - 1 := by omega
    decide

namespace Row

lemma statusOf_text (s : Status) : statusOf s.text = .ok s := by
  cases s <;> rfl

lemma roleOf_text (r : Role) : roleOf r.text = .ok r := by
  cases r <;> rfl

lemma addressOf_toString (a : Net.Address) : addressOf a.toString = .ok a := by
  rw [addressOf, Net.Address.ofString?_toString]

lemma instantOf_instantText {t : Time.Instant} (h : t.HasPlainYear) :
    instantOf (instantText t) = .ok t := by
  rw [instantOf, instantText, String.toList_ofList, Time.Instant.read_offsetText h]

/-- The cells of the row of a record have the types of their columns. -/
lemma typed_ofRecord (o : Record) : (ofRecord o).typed = .ok {
    id := o.id
    name := o.name
    ip := o.address.toString
    mac := o.mac
    status := o.status.text
    role := o.role.text
    architecture := o.architecture
    model := o.model
    cpuCores := o.cpuCores
    memoryMb := signed o.memoryMb.toNat
    lastSeen := instantText o.lastSeen
    clusterId := o.clusterId
    createdAt := instantText o.createdAt
    updatedAt := instantText o.updatedAt
    deletedAt := o.deletedAt.map instantText
    version := signed o.version } := by
  have hcores := o.cpuCores.toNat_lt
  have hfits : (0 : Int) ≤ o.cpuCores.toNat ∧ (o.cpuCores.toNat : Int) ≤ Text.u32Max := by
    unfold Text.u32Max
    omega
  have hopt : ∀ (c : Column) (v : Option String), ofRecord o c = optText v →
      (ofRecord o).optTextOf c = .ok v := by
    intro c v h
    rw [optTextOf, h]
    cases v <;> rfl
  unfold typed
  rw [hopt .mac o.mac rfl, hopt .clusterId o.clusterId rfl,
    hopt .deletedAt (o.deletedAt.map instantText) rfl]
  simp only [integerOf, textOf, ofRecord, bind, Except.bind, pure, Except.pure, hfits, and_self,
    if_true, Int.toNat_natCast, UInt32.ofNat_toNat]

lemma Typed.record_eq_bind (t : Typed) {a : Net.Address} {s : Status} {r : Role}
    (ha : addressOf t.ip = .ok a) (hs : statusOf t.status = .ok s) (hr : roleOf t.role = .ok r) :
    t.record = (do
      let lastSeen ← instantOf t.lastSeen
      let createdAt ← instantOf t.createdAt
      let updatedAt ← instantOf t.updatedAt
      let deletedAt ← t.deletedAt.mapM instantOf
      return ⟨t.id, t.name, a, t.mac, s, r, t.architecture, t.model, t.cpuCores,
        .ofNat t.memoryMb.toNat, lastSeen, t.clusterId, createdAt, updatedAt, deletedAt,
        t.version.toNat⟩) := by
  rw [Typed.record, ha, hs, hr]
  rfl

/-- Only for its times can the row of a record not be read. -/
lemma record_eq_bind (o : Record) : (ofRecord o).record = (do
    let lastSeen ← instantOf (instantText o.lastSeen)
    let createdAt ← instantOf (instantText o.createdAt)
    let updatedAt ← instantOf (instantText o.updatedAt)
    let deletedAt ← (o.deletedAt.map instantText).mapM instantOf
    return Record.asRead { o with lastSeen, createdAt, updatedAt, deletedAt }) := by
  rw [record, typed_ofRecord]
  change Typed.record _ = _
  rw [Typed.record_eq_bind _ (a := o.address) (s := o.status) (r := o.role)]
  · simp only [Record.asRead]
  · exact addressOf_toString o.address
  · exact statusOf_text o.status
  · exact roleOf_text o.role

/-- **A row is read as the record it was made of.** -/
theorem record_ofRecord {o : Record} (h : o.Readable) : (ofRecord o).record = .ok o.asRead := by
  have hdeleted : (o.deletedAt.map instantText).mapM instantOf = .ok o.deletedAt := by
    cases hd : o.deletedAt with
    | none => rfl
    | some t =>
      simp only [Option.map_some, Option.mapM_some, instantOf_instantText (h.deletedAt t hd)]
      rfl
  rw [record_eq_bind, instantOf_instantText h.lastSeen, instantOf_instantText h.createdAt,
    instantOf_instantText h.updatedAt, hdeleted]
  rfl

/-- A record that was read is, written again, read as it was. -/
lemma record_asRead (o : Record) : (ofRecord o.asRead).record = (ofRecord o).record := by
  have hm := asRead_memoryMb_lt o
  have hv := asRead_version_lt o
  obtain ⟨x, v, ho, hsame⟩ : ∃ x v, o.asRead = { o with memoryMb := x, version := v } ∧
      ∀ seen created updated deleted, Record.asRead { o with
        lastSeen := seen, createdAt := created, updatedAt := updated, deletedAt := deleted } =
        { o with
          lastSeen := seen, createdAt := created, updatedAt := updated, deletedAt := deleted
          memoryMb := x, version := v } := ⟨_, _, rfl, fun _ _ _ _ => rfl⟩
  rw [ho] at hm hv ⊢
  have hfits : ∀ seen created updated deleted, Record.asRead { o with
      lastSeen := seen, createdAt := created, updatedAt := updated, deletedAt := deleted
      memoryMb := x, version := v } = { o with
      lastSeen := seen, createdAt := created, updatedAt := updated, deletedAt := deleted
      memoryMb := x, version := v } := fun _ _ _ _ => asRead_eq_self hm hv
  rw [record_eq_bind, record_eq_bind]
  simp only [hsame, hfits]

@[simp] lemma isLive_ofRecord (o : Record) : (ofRecord o).isLive = o.isLive := by
  unfold isLive Record.isLive
  cases h : o.deletedAt <;> simp [ofRecord, h, optText]

/-- Another sign of life in the row of a record. -/
lemma set_lastSeen (o : Record) (t : Time.Instant) :
    (ofRecord o).set .lastSeen (.text (instantText t)) = ofRecord { o with lastSeen := t } := by
  funext c
  cases c <;> rfl

/-- A row is replaced by that of a record with the same identity, address and creation. -/
lemma replaced_ofRecord {new old : Record} (hid : new.id = old.id)
    (ha : new.address = old.address) (hc : new.createdAt = old.createdAt) :
    Table.replaced (ofRecord new) (ofRecord old) = ofRecord new := by
  funext c
  cases c <;> simp [Table.replaced, ofRecord, hid, ha, hc]

end Row

end Sql

end NodeWatch.Store
