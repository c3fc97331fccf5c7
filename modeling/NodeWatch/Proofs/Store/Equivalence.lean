import Mathlib.Data.List.Induction
import NodeWatch.Proofs.Store.Twins

/-!
The two kinds of store answer the same calls alike, from their beginnings on.

The one exception is told by `Refused`: an update of a deleted record which has the address of a
live one or is to get its name. In memory it fails, in a table it succeeds.
-/

namespace NodeWatch.Store

/-- The store in memory after the calls. -/
def Memory.afterCalls (calls : List Request) (hashing : Hashing := .same) : Memory :=
  calls.foldl (fun m q => (m.step q.stamp q.op).2) (.empty hashing)

/-- The table after the calls. -/
def Sql.Table.afterCalls (calls : List Request) : Sql.Table :=
  calls.foldl (fun t q => (Sql.step q.stamp q.op t).2) {}

/-- Calls with distinct new identities, whose numbers and times fit into a table, as the versions
do that come of them. -/
structure Admissible (calls : List Request) : Prop where
  fresh : (calls.filterMap Request.creates?).Nodup
  fits : ∀ q ∈ calls, q.Fits
  room : calls.length < 2 ^ 63

/-- No update of the record has been refused by the store in memory alone. -/
def Spared (calls : List Request) (id : String) (hashing : Hashing := .same) : Prop :=
  ∀ front q back, calls = front ++ q :: back →
    ¬ q.Parts (Memory.afterCalls front hashing).records id

variable {calls : List Request} {q : Request} {k : Hashing}

/-- The identities that the calls use up. -/
lemma created_concat (calls : List Request) (q : Request) :
    (calls ++ [q]).filterMap Request.creates? =
      calls.filterMap Request.creates? ++ q.creates?.toList := by
  rw [List.filterMap_append]
  cases hc : q.creates? <;> simp [hc]

lemma Admissible.init (h : Admissible (calls ++ [q])) : Admissible calls where
  fresh := by
    have := h.fresh
    rw [List.filterMap_append] at this
    exact this.of_append_left
  fits := fun x hx => h.fits x (List.mem_append_left _ hx)
  room := by
    have := h.room
    rw [List.length_append] at this
    omega

lemma Admissible.fresh_last (h : Admissible (calls ++ [q])) :
    ∀ id ∈ q.creates?, id ∉ calls.filterMap Request.creates? := by
  intro id hid hmem
  have hnodup := h.fresh
  rw [created_concat, List.nodup_append] at hnodup
  exact hnodup.2.2 id hmem id (by simpa using hid) rfl

lemma Spared.init {id : String} (h : Spared (calls ++ [q]) id k) : Spared calls id k := by
  rintro front x back rfl
  exact h front x (back ++ [q]) (by simp)

lemma Memory.afterCalls_concat (calls : List Request) (q : Request) :
    afterCalls (calls ++ [q]) k = ((afterCalls calls k).step q.stamp q.op).2 := by
  rw [afterCalls, List.foldl_append]
  rfl

lemma Sql.Table.afterCalls_concat (calls : List Request) (q : Request) :
    afterCalls (calls ++ [q]) = (Sql.step q.stamp q.op (afterCalls calls)).2 := by
  rw [afterCalls, List.foldl_append]
  rfl

/-- The two stores after the calls, and how one more call goes. -/
lemma Admissible.twins (h : Admissible calls) : ∃ os, Twins calls.length
    (calls.filterMap Request.creates?) (fun id => ¬ Spared calls id k)
    (Memory.afterCalls calls k) (Sql.Table.afterCalls calls) os := by
  induction calls using List.reverseRecOn with
  | nil => exact ⟨[], ⟨⟨rfl, rfl, rfl, rfl⟩, Sql.Table.inOrder_empty, .nil, by simp, by simp⟩⟩
  | append_singleton calls q ih =>
    obtain ⟨os, hos⟩ := ih h.init
    have hroom := h.room
    rw [List.length_append, List.length_singleton] at hroom
    obtain ⟨⟨os', hos'⟩, -⟩ := hos.step hroom (h.fits q (by simp)) h.fresh_last
    refine ⟨os', ?_⟩
    rw [List.length_append, List.length_singleton, created_concat, Memory.afterCalls_concat,
      Sql.Table.afterCalls_concat]
    refine hos'.mono fun id hid hspared => ?_
    rcases hid with hid | hid
    · exact hid hspared.init
    · exact hspared calls q [] rfl hid

/-- **The two kinds of store answer alike.** After any calls the next one has the same answer in
memory and in a table; only of a new record whose name and address are both taken may the stores
tell different ones. But an update, at its version, of a deleted record that would share its name
or its address with a live one is refused in memory and carried out in a table, after which its
version and its data may differ. -/
theorem answers_compare (h : Admissible (calls ++ [q]))
    (hspared : ∀ id ∈ q.op.reads?, Spared calls id k) :
    q.Compare (Memory.afterCalls calls k).records
      ((Memory.afterCalls calls k).step q.stamp q.op).1
      (Sql.step q.stamp q.op (Sql.Table.afterCalls calls)).1 := by
  obtain ⟨os, hos⟩ := h.init.twins
  have hroom := h.room
  rw [List.length_append, List.length_singleton] at hroom
  exact (hos.step hroom (h.fits q (by simp)) h.fresh_last).2 fun id hid hc => hc (hspared id hid)

/-! ### A deleted record at the address of a live one -/

/-- A node. -/
def pi : NewRecord := { name := "pi", address := .v4 10 0 0 1, lastSeen := default }

/-- The node is put on record, deleted, and put on record once more. -/
def renewed : List Request :=
  [⟨⟨"a", default⟩, .create pi⟩, ⟨⟨"", default⟩, .delete "a"⟩, ⟨⟨"b", default⟩, .create pi⟩]

/-- An update of the deleted record. -/
def belated : Request := ⟨⟨"", default⟩, .update "a" 2 { model := some "Pi5" }⟩

lemma admissible_renewed : Admissible (renewed ++ [belated]) where
  fresh := by decide
  fits := by
    have hplain : (default : Time.Instant).HasPlainYear := by decide
    simp [renewed, belated, Request.Fits, Request.Plain, Operation.HasPlainTimes,
      Operation.IsSmall, pi, hplain]
  room := by decide

lemma refused_belated : Refused (Memory.afterCalls renewed).records belated.op := by
  refine ⟨(pi.toRecord ⟨"a", default⟩).deleted default, ?_, rfl, rfl, rfl,
    pi.toRecord ⟨"b", default⟩, ?_, rfl, .inl rfl⟩
  · decide +kernel
  · decide +kernel

lemma spared_renewed (id : String) : Spared renewed id := by
  rintro front q back h ⟨v, p, hq, -⟩
  have hmem : q ∈ renewed := by simp [h]
  simp only [renewed, List.mem_cons, List.not_mem_nil, or_false] at hmem
  rcases hmem with rfl | rfl | rfl <;> cases hq

theorem answers_compare_for_renewed : Admissible (renewed ++ [belated]) ∧
    (∀ id ∈ belated.op.reads?, Spared renewed id) ∧
    Refused (Memory.afterCalls renewed).records belated.op ∧
    belated.Compare (Memory.afterCalls renewed).records
      ((Memory.afterCalls renewed).step belated.stamp belated.op).1
      (Sql.step belated.stamp belated.op (Sql.Table.afterCalls renewed)).1 :=
  ⟨admissible_renewed, fun id _ => spared_renewed id, refused_belated,
    answers_compare admissible_renewed fun id _ => spared_renewed id⟩

/-- **The two stores part**: what is refused in memory is done in a table. -/
theorem belated_update_parts : Admissible (renewed ++ [belated]) ∧
    ((Memory.afterCalls renewed).step belated.stamp belated.op).1 =
      .error (.duplicate .ip "10.0.0.1") ∧
    (Sql.step belated.stamp belated.op (Sql.Table.afterCalls renewed)).1.isOk = true ∧
    ¬ belated.Alike (Memory.afterCalls renewed).records
      ((Memory.afterCalls renewed).step belated.stamp belated.op).1
      (Sql.step belated.stamp belated.op (Sql.Table.afterCalls renewed)).1 := by
  have hmemory : ((Memory.afterCalls renewed).step belated.stamp belated.op).1 =
      .error (.duplicate .ip "10.0.0.1") := by rfl
  have htable :
      (Sql.step belated.stamp belated.op (Sql.Table.afterCalls renewed)).1.isOk = true := by
    decide +kernel
  refine ⟨admissible_renewed, hmemory, htable, ?_⟩
  rintro (hsame | ⟨n, hcreate, -⟩)
  · rw [← hsame, hmemory] at htable
    cases htable
  · cases hcreate

end NodeWatch.Store
