import NodeWatch.Proofs.Net.Address

/-!
Reading an address out of a longer text.

A reader stops at a character that cannot belong to what it reads, and gives the same answer as if
the text ended there.
-/

namespace NodeWatch.Net.Address

open Text

variable {α : Type} {base width n : Nat} {s u : List Char} {c : Char}

/-- What a reader tells if more text stands behind what it leaves. -/
def behind (u : List Char) (x : α × List Char) : α × List Char := (x.1, x.2 ++ u)

/-- Neither digits nor the separators of addresses come next. -/
def Closes (u : List Char) : Prop :=
  ∀ c ∈ u.head?, digitValue? 16 c = none ∧ c ≠ '.' ∧ c ≠ ':'

/-! ### Numbers and octets -/

lemma takeWhile_append_of_head? {p : Char → Bool} (hu : ∀ c ∈ u.head?, p c = false) :
    (s ++ u).takeWhile p = s.takeWhile p := by
  have hnone : u.takeWhile p = [] := by
    cases u with
    | nil => rfl
    | cons c u => simp [hu c rfl]
  rw [List.takeWhile_append, hnone, List.append_nil]
  split
  next hlen => exact ((List.takeWhile_prefix p).eq_of_length hlen).symm
  next => rfl

lemma readNumber_append (hu : ∀ c ∈ u.head?, digitValue? base c = none) :
    readNumber base width (s ++ u) = (readNumber base width s).map (behind u) := by
  have hdigits : (s ++ u).takeWhile (fun c => (digitValue? base c).isSome) =
      s.takeWhile fun c => (digitValue? base c).isSome :=
    takeWhile_append_of_head? fun c hc => by simp [hu c hc]
  have hle : (s.takeWhile fun c => (digitValue? base c).isSome).length ≤ s.length :=
    (List.takeWhile_prefix _).length_le
  simp only [readNumber, hdigits, List.drop_append_of_le_length hle]
  split <;> rfl

lemma readChar_append (hu : ∀ d ∈ u.head?, d ≠ c) :
    readChar c (s ++ u) = (readChar c s).map (· ++ u) := by
  cases s with
  | nil =>
    cases u with
    | nil => rfl
    | cons d u => simp [readChar, hu d rfl]
  | cons d s =>
    simp only [List.cons_append, readChar]
    split <;> rfl

lemma Closes.digitValue?_ten (h : Closes u) : ∀ c ∈ u.head?, digitValue? 10 c = none := by
  intro c hc
  have hhex := (h c hc).1
  simp only [digitValue?, Option.filter_eq_none_iff, decide_eq_true_eq] at hhex ⊢
  exact fun d hd => by have := hhex d hd; omega

lemma readOctet_append (hu : ∀ c ∈ u.head?, digitValue? 10 c = none) :
    readOctet (s ++ u) = (readOctet s).map (behind u) := by
  simp only [readOctet, readNumber_append hu]
  cases hs : readNumber 10 3 s with
  | none => rfl
  | some nr =>
    have hne : s ≠ [] := by
      rintro rfl
      cases hs
    simp only [Option.map_some, behind, List.head?_append_of_ne_nil s hne, List.length_append]
    have hlen : nr.2.length + u.length + 1 < s.length + u.length ↔
        nr.2.length + 1 < s.length := by omega
    simp only [hlen]
    split <;> rfl

lemma readV4_append (hdigit : ∀ c ∈ u.head?, digitValue? 10 c = none)
    (hdot : ∀ c ∈ u.head?, c ≠ '.') : readV4 (s ++ u) = (readV4 s).map (behind u) := by
  simp only [readV4, Option.bind_eq_bind, readOctet_append hdigit, readChar_append hdot,
    Option.bind_map, Option.map_bind, Function.comp_def, behind]
  rfl

/-! ### Groups -/

lemma readGroups_append (hu : Closes u) (n : Nat) (first : Bool) (s : List Char) :
    readGroups n first (s ++ u) =
      ((readGroups n first s).1, (readGroups n first s).2.1, (readGroups n first s).2.2 ++ u) := by
  have hhex : ∀ c ∈ u.head?, digitValue? 16 c = none := fun c hc => (hu c hc).1
  have hcolon : ∀ c ∈ u.head?, c ≠ ':' := fun c hc => (hu c hc).2.2
  induction n generalizing first s with
  | zero => rfl
  | succ n ih =>
    have hstart : (if first then some (s ++ u) else readChar ':' (s ++ u)) =
        (if first then some s else readChar ':' s).map (· ++ u) := by
      split
      · rfl
      · exact readChar_append hcolon
    simp only [readGroups, hstart]
    cases (if first then some s else readChar ':' s) with
    | none => rfl
    | some t =>
      have hv4 : (if n = 0 then none else readV4 (t ++ u)) =
          (if n = 0 then none else readV4 t).map (behind u) := by
        split
        · rfl
        · exact readV4_append hu.digitValue?_ten fun c hc => (hu c hc).2.1
      simp only [Option.map_some, hv4, readNumber_append hhex]
      cases (if n = 0 then none else readV4 t) with
      | some x => rfl
      | none =>
        cases readNumber 16 4 t with
        | none => rfl
        | some x => simp only [Option.map_none, Option.map_some, behind, ih]

lemma readV6_append (hu : Closes u) : readV6 (s ++ u) = (readV6 s).map (behind u) := by
  have hcolon : ∀ c ∈ u.head?, c ≠ ':' := fun c hc => (hu c hc).2.2
  rcases hfront : readGroups 8 true s with ⟨front, octets, r⟩
  simp only [readV6, readGroups_append hu, hfront]
  split
  · cases ofGroups? front <;> rfl
  · split
    · rfl
    · simp only [Option.bind_eq_bind, readChar_append hcolon, Option.bind_map, Option.map_bind,
        Function.comp_def, readGroups_append hu, Option.map_map, behind]

/-! ### Whole addresses -/

lemma readV4_of_ofV4Text? {a : Address} (h : ofV4Text? s = some a) :
    ∃ b c d e, a = .v4 b c d e ∧ readV4 s = some ((b, c, d, e), []) := by
  unfold ofV4Text? at h
  split at h
  next b c d e hread =>
    obtain rfl := Option.some.inj h
    exact ⟨b, c, d, e, rfl, hread⟩
  next => cases h

lemma readV6_of_ofV6Text? {a : Address} (h : ofV6Text? s = some a) : readV6 s = some (a, []) := by
  unfold ofV6Text? at h
  split at h
  next hread =>
    obtain rfl := Option.some.inj h
    exact hread
  next => cases h

lemma isV4_of_ofGroups? {gs : List UInt16} {a : Address} (h : ofGroups? gs = some a) :
    a.isV4 = false := by
  unfold ofGroups? at h
  split at h
  · obtain rfl := Option.some.inj h
    rfl
  · cases h

/-- What is read as groups is an address of the second family. -/
lemma isV4_of_readV6 {a : Address} {r : List Char} (h : readV6 s = some (a, r)) :
    a.isV4 = false := by
  rcases hfront : readGroups 8 true s with ⟨front, octets, rest⟩
  simp only [readV6, hfront] at h
  split at h
  · obtain ⟨b, hb, hab⟩ := Option.map_eq_some_iff.mp h
    obtain ⟨rfl, -⟩ := Prod.mk.inj hab
    exact isV4_of_ofGroups? hb
  · split at h
    · cases h
    · simp only [Option.bind_eq_bind, Option.bind_eq_some_iff, Option.map_eq_some_iff] at h
      obtain ⟨_, _, _, _, b, hb, hab⟩ := h
      obtain ⟨rfl, -⟩ := Prod.mk.inj hab
      exact isV4_of_ofGroups? hb

lemma ofV4Text?_text (b c d e : UInt8) : ofV4Text? (v4Text b c d e) = some (.v4 b c d e) := by
  have hread := readV4_v4Text b c d e (u := []) (by simp)
  rw [List.append_nil] at hread
  rw [ofV4Text?, hread]

lemma ofV6Text?_text (gs : Vector UInt16 8) : ofV6Text? (v6Text gs.toList) = some (.v6 gs) := by
  have hread := ofText?_v6Text gs
  rw [ofText?] at hread
  cases hv4 : ofV4Text? (v6Text gs.toList) with
  | none => simpa [hv4] using hread
  | some a =>
    obtain ⟨b, c, d, e, rfl, -⟩ := readV4_of_ofV4Text? hv4
    simp [hv4] at hread

end NodeWatch.Net.Address
