import NodeWatch.Proofs.Program
import NodeWatch.Proofs.Store.Memory
import NodeWatch.Proofs.Store.Sql.Session

/-!
A store of either kind answers the calls of programs as its ledger does.
-/

namespace NodeWatch.Store

namespace Repository

/-- The store is in working order, and what can be read from it stands in the ledger. -/
inductive Holds : Repository → Ledger → Prop where
  | memory {m : Memory} {k : Hashing} {l : Ledger} (medium : l.medium = .memory k)
      (keeps : m.Keeps k l.records) :
    Holds ⟨.memory m, l.made⟩ l
  | table {t : Sql.Table} {inFile : Bool} {l : Ledger} {os : List Record} (tells : t.Tells l os) :
    Holds ⟨.table t inFile, l.made⟩ l

variable {r : Repository} {l : Ledger}

lemma holds_inMemory {k : Hashing} : (inMemory k).Holds ⟨.memory k, 0, []⟩ :=
  .memory (l := ⟨.memory k, 0, []⟩) rfl ⟨rfl, rfl, rfl, rfl⟩

/-- A store holds one ledger. -/
lemma Holds.unique {l' : Ledger} (h : r.Holds l) (h' : r.Holds l') : l = l' := by
  cases h with
  | @memory m k _ medium keeps =>
    generalize hr : (⟨.memory m, l.made⟩ : Repository) = r at h'
    cases h' with
    | @memory m' k' _ medium' keeps' =>
      obtain ⟨⟨rfl⟩, hmade⟩ := Repository.mk.inj hr
      have hrecords : l.records = l'.records := keeps.records.symm.trans keeps'.records
      obtain rfl : k = k' := keeps.hashing.symm.trans keeps'.hashing
      obtain ⟨_, _, _⟩ := l
      obtain ⟨_, _, _⟩ := l'
      simp_all
    | table tells => simp at hr
  | @table t inFile _ os tells =>
    generalize hr : (⟨.table t inFile, l.made⟩ : Repository) = r at h'
    cases h' with
    | memory medium keeps => simp at hr
    | @table t' inFile' _ os' tells' =>
      obtain ⟨hb, hmade⟩ := Repository.mk.inj hr
      obtain ⟨rfl, rfl⟩ := Backing.table.inj hb
      have hrecords : l.records = l'.records := by
        have hread := tells.rows_read.symm.trans tells'.rows_read
        exact List.map_injective_iff.mpr (fun _ _ h => by injection h) hread
      have hmedium : l.medium = l'.medium := tells.medium.trans tells'.medium.symm
      obtain ⟨_, _, _⟩ := l
      obtain ⟨_, _, _⟩ := l'
      simp_all

end Repository

lemma Ledger.sound_nil (m : Medium) : Ledger.Sound ⟨m, 0, []⟩ :=
  ⟨orderly_nil, by simp, by simp⟩

lemma Ledger.made_step (l : Ledger) (now : Time.Instant) {op : Operation}
    (hop : op.Plain l.medium) : (l.step now op).2.made =
      if Repository.hasMade op (l.step now op).1 then l.made + 1 else l.made := by
  cases op with
  | findByAddress a => rfl
  | get id => rfl
  | create n =>
    cases hc : l.medium.clash? l.records (l.next now n) with
    | some u => rw [step_create_clash hc]; rfl
    | none => rw [step_create_free hc]; rfl
  | update id v p =>
    cases hw : withId l.records id with
    | none => rw [step_update_of_none hw]; rfl
    | some r =>
      by_cases hv : r.version = v
      · subst hv
        by_cases hmax : maxVersion ≤ r.version
        · rw [step_update_overflow hw hmax]; rfl
        · cases hc : l.medium.clash? l.records (p.apply r) with
          | some u => rw [step_update_clash hw hmax hc]; rfl
          | none => rw [step_update_free hw hmax hc]; rfl
      · rw [step_update_conflict hw hv]; rfl
  | touch id t =>
    cases hw : withId l.records id with
    | none => rw [step_touch_of_none hw]; rfl
    | some r => rw [step_touch hw]; rfl
  | findByName n => exact hop.elim
  | list => exact hop.elim
  | delete id => exact hop.elim

/-- **A store answers as its ledger**, and goes on to do so. -/
theorem Repository.Holds.step {r : Repository} {l : Ledger} (h : r.Holds l) (hs : l.Sound)
    {now : Time.Instant} (hnow : l.medium.Keeps now) {op : Operation} (hop : op.Plain l.medium) :
    (r.step now op).1 = (l.step now op).1 ∧ (r.step now op).2.Holds (l.step now op).2 := by
  have hmade := l.made_step now hop
  have hmedium := l.medium_step now op
  cases h with
  | @memory m k _ medium keeps =>
    obtain ⟨ha, hk⟩ := keeps.answer medium hs now hop
    rw [← keeps.step] at ha hk
    refine ⟨ha, ?_⟩
    have hrun : (Repository.step now op ⟨.memory m, l.made⟩).2 =
        ⟨.memory (m.step ⟨identity (l.made + 1), now⟩ op).2, (l.step now op).2.made⟩ := by
      rw [hmade, ← ha]
      rfl
    rw [hrun]
    exact .memory (hmedium.trans medium) hk
  | @table t inFile _ os tells =>
    obtain ⟨ha, os', hk⟩ := tells.step hs hnow hop
    refine ⟨ha, ?_⟩
    have hrun : (Repository.step now op ⟨.table t inFile, l.made⟩).2 =
        ⟨.table (Sql.step ⟨identity (l.made + 1), now⟩ op t).2 inFile, (l.step now op).2.made⟩ := by
      rw [hmade, ← ha]
      rfl
    rw [hrun]
    exact .table hk

/-- A store and its ledger as programs meet them. -/
def Repository.Tracks (m : Medium) (r : Repository) (l : Ledger) : Prop :=
  r.Holds l ∧ l.Sound ∧ l.medium = m

lemma Repository.alike {m : Medium} {now : Time.Instant} (hnow : m.Keeps now) :
    Program.Alike (Operation.Plain m) (Repository.Tracks m) (Repository.step now)
      (Ledger.step now) := by
  rintro op r l hop ⟨hold, hs, rfl⟩
  obtain ⟨ha, hk⟩ := hold.step hs hnow hop
  exact ⟨ha, hk, hs.step now hop, l.medium_step now op⟩

end NodeWatch.Store
