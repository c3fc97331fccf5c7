import NodeWatch.Proofs.Store.Ledger

/-!
What a call may do to the records that others know of: nothing is lost, and whoever knows the
version of a record knows what the record says, for some time.
-/

namespace NodeWatch.Store

/-- A version as it can be counted. -/
def Medium.counts : Medium → Nat → Nat
  | memory _, v => v
  | table, v => v % 2 ^ 63

/-- What a program that changes records on its own account looks at. -/
structure Record.Agrees (r s : Record) : Prop where
  status : s.status = r.status
  architecture : s.architecture = r.architecture
  model : s.model = r.model

/-- A record and what has become of it after a call. -/
structure Record.Advances (m : Medium) (r s : Record) : Prop where
  key : s.key = r.key
  version : (s.version = r.version ∧ r.Agrees s) ∨ s.version = m.counts (r.version + 1)

structure Ledger.Advances (l l' : Ledger) : Prop where
  medium : l'.medium = l.medium
  records : ∀ r ∈ l.records, ∃ s ∈ l'.records, r.Advances l.medium s

variable {m : Medium} {l l' : Ledger} {r s t : Record} {a : Net.Address}

lemma Record.Agrees.rfl : r.Agrees r := ⟨by rfl, by rfl, by rfl⟩

lemma Record.Agrees.trans (h : r.Agrees s) (h' : s.Agrees t) : r.Agrees t :=
  ⟨h'.status.trans h.status, h'.architecture.trans h.architecture, h'.model.trans h.model⟩

lemma Record.Advances.rfl : r.Advances m r := ⟨by rfl, .inl ⟨by rfl, .rfl⟩⟩

lemma Ledger.Advances.rfl : l.Advances l := ⟨by rfl, fun r hr => ⟨r, hr, .rfl⟩⟩

lemma Medium.revise_version {m : Medium} (h : m = .table → r.version < 2 ^ 63) (now : Time.Instant)
    (p : Patch) : (m.revise now p r).version = m.counts (r.version + 1) := by
  cases m with
  | memory _ => rfl
  | table =>
    have hs := Sql.signed_succ_mod (h (by rfl))
    have hlt := Sql.signed_lt (r.version + 1)
    simp only [Medium.revise, Medium.read, Record.asRead, Medium.counts]
    omega

namespace Ledger

lemma advances_amend {id : String} {f : Record → Record}
    (h : ∀ r ∈ l.records, r.Advances l.medium (f r)) : l.Advances (l.amend id f) where
  medium := rfl
  records := by
    intro r hr
    refine ⟨_, mem_amend.mpr ⟨r, hr, rfl⟩, ?_⟩
    split
    · exact h r hr
    · exact .rfl

/-- No call loses a record, and a new version is the next one. -/
lemma Sound.advances (h : l.Sound) (now : Time.Instant) {op : Operation}
    (hop : op.Plain l.medium) : l.Advances (l.step now op).2 := by
  cases op with
  | findByAddress a => exact .rfl
  | get id => exact .rfl
  | create n =>
    simp only [Ledger.step]
    split
    · exact .rfl
    · exact ⟨rfl, fun r hr => ⟨r, List.mem_append_left _ hr, .rfl⟩⟩
  | update id expected p =>
    have hrevise : ∀ r ∈ l.records, r.Advances l.medium (l.medium.revise now p r) :=
      fun r hr => ⟨l.medium.keepsKey_revise now hop.1 r,
        .inr (Medium.revise_version (fun hm => h.small hm r hr) now p)⟩
    simp only [Ledger.step]
    split
    · exact .rfl
    · split
      · exact .rfl
      · split
        · exact .rfl
        · split
          · exact .rfl
          · exact advances_amend hrevise
  | touch id t =>
    simp only [Ledger.step]
    split
    · exact .rfl
    · exact advances_amend fun r _ => ⟨keepsKey_touched t r, .inl ⟨rfl, rfl, rfl, rfl⟩⟩
  | findByName n => exact hop.elim
  | list => exact hop.elim
  | delete id => exact hop.elim

end Ledger

/-! ### Names and addresses -/

section

variable (h : l.Advances l')
include h

lemma Ledger.Advances.liveAt (hs : l'.Sound) (hr : liveAt l.records a = some r) :
    ∃ s, liveAt l'.records a = some s ∧ r.Advances l.medium s := by
  obtain ⟨hm, hl, ha⟩ := liveAt_eq_some hr
  obtain ⟨s, hs', hrs⟩ := h.records r hm
  have hsl : s.isLive = true := (congrArg Record.Key.live hrs.key).trans hl
  have hsa : s.address = a := (congrArg Record.Key.address hrs.key).trans ha
  exact ⟨s, hs.orderly.liveAt_of_mem hs' hsl hsa, hrs⟩

lemma Ledger.Advances.named {name : String}
    (hn : ∃ r ∈ l.records, r.isLive = true ∧ r.name = name) :
    ∃ s ∈ l'.records, s.isLive = true ∧ s.name = name := by
  obtain ⟨r, hm, hl, rfl⟩ := hn
  obtain ⟨s, hs, hrs⟩ := h.records r hm
  exact ⟨s, hs, (congrArg Record.Key.live hrs.key).trans hl, congrArg Record.Key.name hrs.key⟩

lemma Ledger.Advances.identified {id : String} (hi : ∃ r ∈ l.records, r.id = id) :
    ∃ s ∈ l'.records, s.id = id := by
  obtain ⟨r, hm, rfl⟩ := hi
  obtain ⟨s, hs, hrs⟩ := h.records r hm
  exact ⟨s, hs, congrArg Record.Key.id hrs.key⟩

end

/-! ### Copies -/

/-- The copy of the live record at an address is at most `n` calls old. -/
def Known (n : Nat) (l : Ledger) (a : Net.Address) (r : Record) : Prop :=
  (l.medium = .table → r.version < 2 ^ 63) ∧ ∃ s, liveAt l.records a = some s ∧ s.id = r.id ∧
    ∃ k ≤ n, s.version = l.medium.counts (r.version + k) ∧ (k = 0 → r.Agrees s)

variable {n : Nat}

lemma Known.of_liveAt (hs : l.Sound) (h : liveAt l.records a = some r) : Known n l a r := by
  have hsmall : l.medium = .table → r.version < 2 ^ 63 :=
    fun hm => hs.small hm r (liveAt_eq_some h).1
  refine ⟨hsmall, r, h, rfl, 0, Nat.zero_le n, ?_, fun _ => .rfl⟩
  cases hm : l.medium with
  | memory _ => rfl
  | table => exact (Nat.mod_eq_of_lt (hsmall hm)).symm

lemma Medium.counts_succ (m : Medium) (v k : Nat) :
    m.counts (m.counts (v + k) + 1) = m.counts (v + (k + 1)) := by
  cases m with
  | memory _ => rfl
  | table =>
    simp only [Medium.counts]
    omega

/-- With every call of whomever the copy gets older. -/
lemma Known.advance (h : Known n l a r) (hl : l.Advances l') (hs : l'.Sound) :
    Known (n + 1) l' a r := by
  obtain ⟨hsmall, s, hlive, hid, k, hk, hv, hsame⟩ := h
  obtain ⟨s', hlive', hss⟩ := hl.liveAt hs hlive
  rw [Known, hl.medium]
  refine ⟨hsmall, s', hlive', (congrArg Record.Key.id hss.key).trans hid, ?_⟩
  rcases hss.version with ⟨hv', hagrees⟩ | hv'
  · exact ⟨k, by omega, hv'.trans hv, fun hk0 => (hsame hk0).trans hagrees⟩
  · refine ⟨k + 1, by omega, ?_, by omega⟩
    rw [hv', hv, Medium.counts_succ]

/-- As long as versions cannot have come round, the same version means the same record. -/
lemma Known.agrees (h : Known n l a r) (hn : l.medium = .table → n < 2 ^ 63)
    (hs : liveAt l.records a = some s) (hv : s.version = r.version) : r.Agrees s := by
  obtain ⟨hsmall, s', hs', -, k, hk, hcount, hsame⟩ := h
  rw [hs] at hs'
  obtain rfl := Option.some.inj hs'
  refine hsame ?_
  rw [hv] at hcount
  cases hm : l.medium with
  | memory _ =>
    rw [hm, Medium.counts] at hcount
    omega
  | table =>
    have := hn hm
    have := hsmall hm
    rw [hm, Medium.counts] at hcount
    omega

lemma Known.exists (h : Known n l a r) : ∃ s, liveAt l.records a = some s ∧ s.id = r.id := by
  obtain ⟨-, s, hs, hid, -⟩ := h
  exact ⟨s, hs, hid⟩

end NodeWatch.Store
