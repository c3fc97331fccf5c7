import NodeWatch.Proofs.Store.Ledger

/-!
The store in memory answers as its ledger does.
-/

namespace NodeWatch.Store

namespace Memory

variable {m : Memory} {k : Hashing} {rs : List Record} {r new : Record}

/-- A store in working order with the records. -/
structure Keeps (m : Memory) (k : Hashing) (rs : List Record) : Prop where
  online : m.offline = false
  willing : m.failures = 0
  hashing : m.hashing = k
  records : m.records = rs

lemma Keeps.step (h : m.Keeps k rs) (s : Stamp) (op : Operation) : m.step s op = m.answer s op := by
  simp [Memory.step, h.online, h.willing]

lemma Keeps.live (h : m.Keeps k rs) : m.live = rs.filter (·.isLive) := by
  rw [Memory.live, h.records]

lemma Keeps.find?_live (h : m.Keeps k rs) (a : Net.Address) :
    m.live.find? (·.address = a) = liveAt rs a := by
  rw [h.live, List.find?_filter, liveAt]
  congr 1
  funext r
  simp

lemma putInto_of_mem (hn : (rs.map (·.id)).Nodup) (hm : r ∈ rs) (hid : new.id = r.id) :
    putInto new rs = rs.map fun s => if s.id = r.id then new else s := by
  induction rs with
  | nil => simp at hm
  | cons s rs ih =>
    obtain ⟨hs, hn'⟩ := List.nodup_cons.mp hn
    by_cases he : s.id = r.id
    · -- nobody behind the first one has the identity
      have hrest : (rs.map fun x => if x.id = r.id then new else x) = rs := by
        conv_rhs => rw [← List.map_id rs]
        refine List.map_congr_left fun x hx => if_neg fun hxe => hs ?_
        exact List.mem_map.mpr ⟨x, hx, hxe.trans he.symm⟩
      rw [putInto, if_pos (he.trans hid.symm), List.map_cons, if_pos he, hrest]
    · have hm' : r ∈ rs := by
        rcases List.mem_cons.mp hm with rfl | hm
        · exact absurd rfl he
        · exact hm
      rw [putInto, if_neg (by rw [hid]; exact he), ih hn' hm', List.map_cons, if_neg he]

lemma putInto_of_new (hnew : ∀ s ∈ rs, s.id ≠ new.id) : putInto new rs = rs ++ [new] := by
  induction rs with
  | nil => rfl
  | cons s rs ih =>
    rw [putInto, if_neg (hnew s (by simp)), ih fun x hx => hnew x (by simp [hx])]
    rfl

lemma putInto_eq_amend (ho : Orderly rs) (hm : r ∈ rs) {f : Record → Record} (hf : KeepsKey f) :
    putInto (f r) rs = amend r.id f rs := by
  rw [putInto_of_mem ho.1 hm (hf.id_eq r), amend]
  refine List.map_congr_left fun s hs => ?_
  split
  next he => rw [ho.eq_of_id hs hm he]
  next => rfl

lemma Keeps.clash?_eq (h : m.Keeps k rs) (r : Record) :
    m.clash? r = ((Medium.memory k).clash? rs r).map (Ledger.clashError r) := by
  have hfilter : (rs.filter (·.isLive)).filter (·.id ≠ r.id) =
      rs.filter fun s => s.isLive && s.id ≠ r.id := by
    rw [List.filter_filter]
    congr 1
    funext s
    rw [Bool.and_comm]
  simp only [Memory.clash?, Memory.places, h.hashing, h.records, h.live, hfilter, Medium.clash?,
    List.map_findSome?]
  congr 1
  funext s
  simp only [Function.comp]
  split
  · rfl
  · split <;> rfl

lemma Keeps.written (h : m.Keeps k rs) (r : Record) : (m.written r).Keeps k (putInto r rs) :=
  ⟨h.online, h.willing, h.hashing, by rw [← h.records]; rfl⟩

lemma Keeps.put (h : m.Keeps k rs) (r : Record) : (m.put r).Keeps k (putInto r rs) :=
  ⟨h.online, h.willing, h.hashing, by rw [← h.records]; rfl⟩

lemma answer_create_clash {s : Stamp} {n : NewRecord} {e : Error}
    (h : m.clash? (n.toRecord s) = some e) : m.answer s (.create n) = (.error e, m) := by
  simp only [Memory.answer, h]

lemma answer_create_free {s : Stamp} {n : NewRecord} (h : m.clash? (n.toRecord s) = none) :
    m.answer s (.create n) = (.ok (n.toRecord s), m.written (n.toRecord s)) := by
  simp only [Memory.answer, h]

section

variable {s : Stamp} {id : String} {v : Nat} {p : Patch}

lemma answer_update_of_none (h : m.find? id = none) :
    m.answer s (.update id v p) = (.error (.notFound id), m) := by
  simp only [Memory.answer, h]

lemma answer_update_conflict (h : m.find? id = some r) (hv : r.version ≠ v) :
    m.answer s (.update id v p) = (.error (.conflict id v r.version), m) := by
  simp only [Memory.answer, h]
  rw [if_pos hv]

lemma answer_update_overflow (h : m.find? id = some r) (hmax : maxVersion ≤ r.version) :
    m.answer s (.update id r.version p) = (.error .versionOverflow, m) := by
  simp only [Memory.answer, h]
  rw [if_neg (by simp), if_pos hmax]

lemma answer_update_clash (h : m.find? id = some r) (hmax : ¬ maxVersion ≤ r.version) {e : Error}
    (hc : m.clash? (r.revised s.now p) = some e) :
    m.answer s (.update id r.version p) = (.error e, m) := by
  unfold Record.revised at hc
  simp only [Memory.answer, h]
  rw [if_neg (by simp), if_neg hmax]
  simp only [hc]

lemma answer_update_free (h : m.find? id = some r) (hmax : ¬ maxVersion ≤ r.version)
    (hc : m.clash? (r.revised s.now p) = none) : m.answer s (.update id r.version p) =
      (.ok (r.revised s.now p), m.written (r.revised s.now p)) := by
  unfold Record.revised at hc ⊢
  simp only [Memory.answer, h]
  rw [if_neg (by simp), if_neg hmax]
  simp only [hc]

lemma answer_touch_of_none {u : Time.Instant} (h : m.find? id = none) :
    m.answer s (.touch id u) = (.error (.notFound id), m) := by
  simp only [Memory.answer, h]

lemma answer_touch {u : Time.Instant} (h : m.find? id = some r) :
    m.answer s (.touch id u) = (.ok (), m.put (r.touched u)) := by
  simp only [Memory.answer, h]
  rfl

lemma answer_delete_of_dead (h : ∀ r, m.find? id = some r → r.isLive = false) :
    m.answer s (.delete id) = (.ok false, m) := by
  simp only [Memory.answer]
  split
  next r hr => simp [h r hr]
  next => rfl

lemma answer_delete (h : m.find? id = some r) (hl : r.isLive = true)
    (hmax : ¬ maxVersion ≤ r.version) :
    m.answer s (.delete id) = (.ok true, m.written (r.deleted s.now)) := by
  simp only [Memory.answer, h, hl, if_true]
  rw [if_neg hmax]
  rfl

end

/-- The answer to a call, and what is kept after it. -/
def Agrees (k : Hashing) (now : Time.Instant) (op : Operation) (m : Memory) (l : Ledger) : Prop :=
  (m.answer ⟨Repository.identity (l.made + 1), now⟩ op).1 = (l.step now op).1 ∧
    (m.answer ⟨Repository.identity (l.made + 1), now⟩ op).2.Keeps k (l.step now op).2.records

section

variable {l : Ledger} (h : m.Keeps k l.records)
include h

lemma Keeps.find?_eq (id : String) : m.find? id = withId l.records id := by
  rw [Memory.find?, h.records]
  rfl

lemma Keeps.create (hl : l.medium = .memory k) (hs : l.Sound) (now : Time.Instant) (n : NewRecord) :
    Agrees k now (.create n) m l := by
  have hclash := h.clash?_eq (l.next now n)
  rw [← hl] at hclash
  unfold Agrees
  cases hu : l.medium.clash? l.records (l.next now n) with
  | some u =>
    have hm : m.clash? (l.next now n) = some (Ledger.clashError (l.next now n) u) := by
      rw [hclash, hu]
      rfl
    rw [Ledger.step_create_clash hu, answer_create_clash hm]
    exact ⟨rfl, h⟩
  | none =>
    have hm : m.clash? (l.next now n) = none := by
      rw [hclash, hu]
      rfl
    rw [Ledger.step_create_free hu, answer_create_free hm]
    refine ⟨rfl, ?_⟩
    have hput := putInto_of_new (hs.next_id now n)
    have hread : l.medium.read (l.next now n) = l.next now n := by
      rw [hl]
      rfl
    simp only [Ledger.add, hread, ← hput]
    exact h.written _

lemma Keeps.update (hl : l.medium = .memory k) (hs : l.Sound) (now : Time.Instant) (id : String)
    (expected : Nat) {p : Patch} (hp : p.name = none) :
    Agrees k now (.update id expected p) m l := by
  simp only [Agrees, Memory.answer, Ledger.step, h.find?_eq]
  cases hw : withId l.records id with
  | none => exact ⟨rfl, h⟩
  | some r =>
    obtain ⟨hr, rfl⟩ := withId_eq_some hw
    simp only
    split
    · exact ⟨rfl, h⟩
    · split
      · exact ⟨rfl, h⟩
      · have hclash : m.clash? { p.apply r with version := r.version + 1, updatedAt := now } =
            (l.medium.clash? l.records (p.apply r)).map (Ledger.clashError (p.apply r)) := by
          rw [h.clash?_eq, hl]
          rfl
        rw [hclash]
        cases l.medium.clash? l.records (p.apply r) with
        | some u => exact ⟨rfl, h⟩
        | none =>
          refine ⟨rfl, ?_⟩
          have hrev : l.medium.revise now p r =
              { p.apply r with version := r.version + 1, updatedAt := now } := by
            rw [hl]
            rfl
          have hput := putInto_eq_amend hs.orderly hr (l.medium.keepsKey_revise now hp)
          rw [hrev] at hput
          rw [Ledger.amend, ← hput]
          exact h.written _

lemma Keeps.touch (hs : l.Sound) (now : Time.Instant) (id : String) (t : Time.Instant) :
    Agrees k now (.touch id t) m l := by
  simp only [Agrees, Memory.answer, Ledger.step, h.find?_eq]
  cases hw : withId l.records id with
  | none => exact ⟨rfl, h⟩
  | some r =>
    obtain ⟨hr, rfl⟩ := withId_eq_some hw
    refine ⟨rfl, h.online, h.willing, h.hashing, ?_⟩
    rw [Ledger.amend, ← putInto_eq_amend hs.orderly hr (keepsKey_touched t), ← h.records]
    rfl

/-- A call in memory is answered as by the ledger. -/
theorem Keeps.answer (hl : l.medium = .memory k) (hs : l.Sound) (now : Time.Instant)
    {op : Operation} (hop : op.Plain l.medium) : Agrees k now op m l := by
  cases op with
  | findByAddress a => exact ⟨congrArg Except.ok (h.find?_live a), h⟩
  | get id => exact ⟨congrArg Except.ok (h.find?_eq id), h⟩
  | create n => exact h.create hl hs now n
  | update id expected p => exact h.update hl hs now id expected hop.1
  | touch id t => exact h.touch hs now id t
  | findByName n => exact hop.elim
  | list => exact hop.elim
  | delete id => exact hop.elim

end

end Memory

end NodeWatch.Store
