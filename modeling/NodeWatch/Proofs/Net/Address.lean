import Mathlib.Algebra.Group.Nat.Defs
import Mathlib.Data.List.Basic
import Mathlib.Tactic.Common
import NodeWatch.Net.Address.Text
import NodeWatch.Proofs.Text.Numeral

/-!
A printed address reads as the address it was printed from, so that different addresses have
different texts.
-/

namespace NodeWatch.Net.Address

open Text

variable {base width n : Nat}

/-! ### Numbers and octets -/

/-- What follows a number that is read must not go on with a digit. -/
lemma readNumber_digits (hb : 1 < base) (hb' : base ≤ 16) (hw : 0 < width) (hn : n < base ^ width)
    {u : List Char} (hu : ∀ c ∈ u.head?, digitValue? base c = none) :
    readNumber base width (digits base n ++ u) = some (n, u) := by
  have hall : ∀ c ∈ digits base n, (digitValue? base c).isSome = true := by
    intro c hc
    obtain ⟨d, hd, rfl⟩ := eq_digitChar_of_mem_digits hb hc
    simp [digitValue?_digitChar hb' hd]
  have hu' : u.takeWhile (fun c => (digitValue? base c).isSome) = [] := by
    cases u with
    | nil => rfl
    | cons c u => simp [hu c (by simp)]
  have htake : (digits base n ++ u).takeWhile (fun c => (digitValue? base c).isSome) =
      digits base n := by
    rw [List.takeWhile_append_of_pos hall, hu', List.append_nil]
  have hlen := length_digits_le hb hw hn
  unfold readNumber
  rw [htake, if_neg (by simp [digits_ne_nil]; omega), valueFrom_digits hb hb',
    List.drop_left]

lemma readNumber_eq_none {u : List Char} (hu : ∀ c ∈ u.head?, digitValue? base c = none) :
    readNumber base width u = none := by
  have hu' : u.takeWhile (fun c => (digitValue? base c).isSome) = [] := by
    cases u with
    | nil => rfl
    | cons c u => simp [hu c (by simp)]
  simp [readNumber, hu']

lemma readOctet_decimal (o : UInt8) {u : List Char}
    (hu : ∀ c ∈ u.head?, digitValue? 10 c = none) :
    readOctet (decimal o.toNat ++ u) = some (o, u) := by
  have ho := o.toNat_lt
  unfold readOctet
  rw [decimal, readNumber_digits (by omega) (by omega) (by omega) (by omega) hu]
  simp only
  rw [if_neg]
  · simp
  · rintro (h | ⟨hzero, hlen⟩)
    · omega
    · -- a number that begins with a zero is zero, and has one digit
      rw [List.head?_append_of_ne_nil _ digits_ne_nil] at hzero
      have : o.toNat = 0 := by
        by_contra hne
        exact head?_digits (by omega) (by omega) hzero
      rw [this, digits_of_lt (by omega)] at hlen
      simp at hlen

lemma digitValue?_head?_dot {v : List Char} : ∀ c ∈ ('.' :: v).head?, digitValue? 10 c = none := by
  intro c hc
  rw [List.head?_cons, Option.mem_some_iff] at hc
  subst hc
  decide

lemma readV4_v4Text (a b c d : UInt8) {u : List Char}
    (hu : ∀ c ∈ u.head?, digitValue? 10 c = none) :
    readV4 (v4Text a b c d ++ u) = some ((a, b, c, d), u) := by
  simp only [v4Text, List.map_cons, List.map_nil, join, List.append_assoc, List.cons_append,
    List.nil_append, readV4]
  rw [readOctet_decimal a digitValue?_head?_dot]
  simp only [Option.bind_eq_bind, Option.bind_some, readChar, if_true]
  rw [readOctet_decimal b digitValue?_head?_dot]
  simp only [Option.bind_some, if_true]
  rw [readOctet_decimal c digitValue?_head?_dot]
  simp only [Option.bind_some, if_true]
  rw [readOctet_decimal d hu]
  rfl

lemma drop_takeWhile (p : Char → Bool) (s : List Char) :
    s.drop (s.takeWhile p).length = s.dropWhile p := by
  have h : (s.takeWhile p ++ s.dropWhile p).drop (s.takeWhile p).length = s.dropWhile p :=
    List.drop_left
  rwa [List.takeWhile_append_dropWhile] at h

lemma readNumber_rest {s r : List Char} (h : readNumber base width s = some (n, r)) :
    r = s.dropWhile fun c => (digitValue? base c).isSome := by
  simp only [readNumber] at h
  split at h
  · simp at h
  · simp only [Option.some.injEq, Prod.mk.injEq] at h
    rw [← h.2, drop_takeWhile]

lemma readOctet_rest {o : UInt8} {s r : List Char} (h : readOctet s = some (o, r)) :
    r = s.dropWhile fun c => (digitValue? 10 c).isSome := by
  unfold readOctet at h
  cases hr : readNumber 10 3 s with
  | none => simp [hr] at h
  | some nr =>
    obtain ⟨m, r'⟩ := nr
    simp only [hr] at h
    split at h
    · simp at h
    · simp only [Option.some.injEq, Prod.mk.injEq] at h
      rw [← h.2, readNumber_rest hr]

/-- Without a dot behind the first number there are no octets. -/
lemma readV4_eq_none {ds u : List Char} (hds : '.' ∉ ds) (hu : ∀ c ∈ u.head?, c = ':') :
    readV4 (ds ++ u) = none := by
  unfold readV4
  cases ho : readOctet (ds ++ u) with
  | none => rfl
  | some oc =>
    obtain ⟨a, r⟩ := oc
    have hdot : readChar '.' r = none := by
      rw [readOctet_rest ho, List.dropWhile_append]
      split
      · cases u with
        | nil => rfl
        | cons c u =>
          obtain rfl := hu c (by simp)
          rfl
      next hne =>
        cases hd : ds.dropWhile fun c => (digitValue? 10 c).isSome with
        | nil => simp [hd] at hne
        | cons c v =>
          have hc : c ∈ ds := (List.dropWhile_sublist _).subset (by rw [hd]; simp)
          have : c ≠ '.' := fun he => hds (he ▸ hc)
          simp [readChar, this]
    simp [hdot]

/-! ### Groups -/

/-- The groups after the first, each behind its colon. -/
def groupsTail (gs : List UInt16) : List Char := gs.flatMap fun g => ':' :: digits 16 g.toNat

lemma groupsText_cons (g : UInt16) (gs : List UInt16) :
    groupsText (g :: gs) = digits 16 g.toNat ++ groupsTail gs := by
  induction gs generalizing g with
  | nil => simp [groupsText, groupsTail, join]
  | cons h gs ih =>
    have := ih h
    simp only [groupsText, List.map_cons, join] at this ⊢
    rw [this]
    simp [groupsTail]

lemma dot_notMem_digits (n : Nat) : '.' ∉ digits 16 n := by
  intro h
  obtain ⟨d, hd, he⟩ := eq_digitChar_of_mem_digits (by omega) h
  have : ∀ k : Fin 16, '.' ≠ k.val.digitChar := by decide
  exact this ⟨d, hd⟩ he

/-- What stands behind a list of groups: nothing, or two colons. -/
def Stops (u : List Char) : Prop := u = [] ∨ ∃ v, u = ':' :: ':' :: v

lemma readV4_colon (v : List Char) : readV4 (':' :: v) = none := rfl

lemma readNumber_colon (v : List Char) : readNumber 16 4 (':' :: v) = none :=
  readNumber_eq_none (by simp; decide)

lemma head?_groupsTail (gs : List UInt16) {u : List Char} (hu : ∀ c ∈ u.head?, c = ':') :
    ∀ c ∈ (groupsTail gs ++ u).head?, c = ':' := by
  cases gs with
  | nil => exact hu
  | cons g gs => simp [groupsTail]

lemma Stops.head? {u : List Char} (h : Stops u) : ∀ c ∈ u.head?, c = ':' := by
  rcases h with rfl | ⟨v, rfl⟩ <;> simp

lemma readGroups_stop {u : List Char} (h : Stops u) (k : Nat) (first : Bool) :
    readGroups k first u = ([], false, u) := by
  cases k with
  | zero => rfl
  | succ k =>
    rcases h with rfl | ⟨v, rfl⟩
    · cases first <;> cases k <;> rfl
    · cases first <;> cases k <;> simp [readGroups, readChar, readV4_colon, readNumber_colon]

lemma readGroups_group (g : UInt16) (k : Nat) {u : List Char} (hu : ∀ c ∈ u.head?, c = ':') :
    readGroups (k + 1) true (digits 16 g.toNat ++ u) =
      (g :: (readGroups k false u).1, (readGroups k false u).2) := by
  have hnum : readNumber 16 4 (digits 16 g.toNat ++ u) = some (g.toNat, u) := by
    have hg : g.toNat < 16 ^ 4 := g.toNat_lt
    refine readNumber_digits (by omega) (by omega) (by omega) hg fun c hc => ?_
    obtain rfl := hu c hc
    decide
  have hv4 : (if k = 0 then none else readV4 (digits 16 g.toNat ++ u)) = none := by
    rw [readV4_eq_none (dot_notMem_digits _) hu]
    split <;> rfl
  rw [readGroups]
  simp only [if_true, hv4, hnum]
  simp

lemma readGroups_false (k : Nat) (s : List Char) :
    (readGroups (k + 1) true s).1 ≠ [] →
      readGroups (k + 1) false (':' :: s) = readGroups (k + 1) true s := by
  intro h
  rw [readGroups] at h ⊢
  simp only [readChar, if_true, Bool.false_eq_true, if_false] at h ⊢
  rw [readGroups]
  simp only [if_true]
  split
  · rfl
  · split
    next hn => simp_all
    next => rfl

/-- Groups are read back, however many more might be read. -/
lemma readGroups_groupsTail (gs : List UInt16) {k : Nat} (hk : gs.length ≤ k) {u : List Char}
    (hu : Stops u) : readGroups k false (groupsTail gs ++ u) = (gs, false, u) := by
  induction gs generalizing k with
  | nil => exact readGroups_stop hu k false
  | cons g gs ih =>
    obtain ⟨k, rfl⟩ : ∃ j, k = j + 1 := ⟨k - 1, by simp at hk; omega⟩
    have hread := readGroups_group g k (head?_groupsTail gs hu.head?)
    have htext : groupsTail (g :: gs) ++ u =
        ':' :: (digits 16 g.toNat ++ (groupsTail gs ++ u)) := by
      simp [groupsTail]
    rw [htext, readGroups_false _ _ (by rw [hread]; simp), hread,
      ih (by simpa using hk)]

lemma readGroups_groupsText (gs : List UInt16) {k : Nat} (hk : gs.length ≤ k) {u : List Char}
    (hu : Stops u) : readGroups k true (groupsText gs ++ u) = (gs, false, u) := by
  cases gs with
  | nil => exact readGroups_stop hu k true
  | cons g gs =>
    obtain ⟨k, rfl⟩ : ∃ j, k = j + 1 := ⟨k - 1, by simp at hk; omega⟩
    rw [groupsText_cons, List.append_assoc, readGroups_group g k (head?_groupsTail gs hu.head?),
      readGroups_groupsTail gs (by simpa using hk) hu]

/-! ### Runs of zeros -/

lemma longestZeros_spec (gs : List UInt16) :
    gs = gs.take (longestZeros gs).1 ++ List.replicate (longestZeros gs).2 0 ++
      gs.drop ((longestZeros gs).1 + (longestZeros gs).2) := by
  induction gs with
  | nil => rfl
  | cons g gs ih =>
    simp only [longestZeros]
    split
    · have hz : ∀ s : List UInt16, s = List.replicate (s.takeWhile (· == 0)).length 0 ++
          s.drop (s.takeWhile (· == 0)).length := by
        intro s
        induction s with
        | nil => rfl
        | cons h s ih =>
          by_cases hh : h = 0
          · subst hh
            simpa [List.replicate_succ] using ih
          · simp [hh]
      simpa using hz (g :: gs)
    · rw [List.take_succ_cons, Nat.add_right_comm, List.drop_succ_cons]
      simpa using ih

/-! ### Whole addresses -/

lemma ofGroups?_toList (gs : Vector UInt16 8) : ofGroups? gs.toList = some (.v6 gs) := by
  unfold ofGroups?
  rw [dif_pos gs.length_toList]
  rfl

lemma ofText?_v6 {s : List Char} (hv4 : readV4 s = none) {a : Address}
    (hv6 : readV6 s = some (a, [])) : ofText? s = some a := by
  simp [ofText?, ofV4Text?, ofV6Text?, hv4, hv6]

lemma readV4_groupsText_append (gs : List UInt16) {u : List Char} (hu : Stops u)
    (h : gs ≠ [] ∨ u ≠ []) : readV4 (groupsText gs ++ u) = none := by
  cases gs with
  | nil =>
    rcases hu with rfl | ⟨v, rfl⟩
    · simp at h
    · rfl
  | cons g gs =>
    rw [groupsText_cons, List.append_assoc]
    exact readV4_eq_none (dot_notMem_digits _) (head?_groupsTail gs hu.head?)

lemma ofText?_groupsText (gs : Vector UInt16 8) :
    ofText? (groupsText gs.toList) = some (.v6 gs) := by
  have hlen : gs.toList.length = 8 := gs.length_toList
  have hne : gs.toList ≠ [] := fun h => by simp [h] at hlen
  have hstop : Stops [] := .inl rfl
  have hread := readGroups_groupsText gs.toList (Nat.le_of_eq hlen) hstop
  have hv4 := readV4_groupsText_append gs.toList hstop (.inl hne)
  rw [List.append_nil] at hread hv4
  refine ofText?_v6 hv4 ?_
  simp [readV6, hread, hlen, ofGroups?_toList]

/-- A run of zeros that is left out is filled in again. -/
lemma ofText?_compressed (gs : Vector UInt16 8) {i n : Nat} (hn : 1 < n)
    (hgs : gs.toList = gs.toList.take i ++ List.replicate n 0 ++ gs.toList.drop (i + n)) :
    ofText? (groupsText (gs.toList.take i) ++ [':', ':'] ++ groupsText (gs.toList.drop (i + n))) =
      some (.v6 gs) := by
  have hlen : gs.toList.length = 8 := gs.length_toList
  generalize hfront : gs.toList.take i = front at hgs ⊢
  generalize hback : gs.toList.drop (i + n) = back at hgs ⊢
  have hsum : front.length + n + back.length = 8 := by
    rw [← hlen]
    conv_rhs => rw [hgs]
    simp only [List.length_append, List.length_replicate]
  have hstop : Stops (':' :: ':' :: groupsText back) := .inr ⟨_, rfl⟩
  have htext : groupsText front ++ [':', ':'] ++ groupsText back =
      groupsText front ++ ':' :: ':' :: groupsText back := by simp
  rw [htext]
  have hf := readGroups_groupsText front (Nat.le_trans (Nat.le_add_right _ _)
    (by omega : front.length + n ≤ 8)) hstop
  have hb := readGroups_groupsText back (by omega : back.length ≤ 7 - front.length) (.inl rfl)
  rw [List.append_nil] at hb
  refine ofText?_v6 (readV4_groupsText_append front hstop (.inr (by simp))) ?_
  have hgap : 8 - front.length - back.length = n := by omega
  have hne : front.length ≠ 8 := by omega
  simp only [readV6, hf, hne, if_false, Bool.false_eq_true, readChar, if_true,
    Option.bind_eq_bind, Option.bind_some, hb, hgap]
  rw [← hgs, ofGroups?_toList]
  rfl

lemma group_octets (g : UInt16) : group (.ofNat (g.toNat / 256)) (.ofNat g.toNat) = g := by
  have hg := g.toNat_lt
  rw [← UInt16.toNat_inj]
  simp only [group, UInt8.toNat_ofNat', UInt16.toNat_ofNat']
  omega

/-- Behind `::ffff:` the last two groups stand as octets. -/
lemma ofText?_mapped (g h : UInt16) :
    ofText? ("::ffff:".toList ++
      v4Text (.ofNat (g.toNat / 256)) (.ofNat g.toNat) (.ofNat (h.toNat / 256)) (.ofNat h.toNat)) =
      ofGroups? [0, 0, 0, 0, 0, 0xffff, g, h] := by
  generalize hv : v4Text (.ofNat (g.toNat / 256)) (.ofNat g.toNat) (.ofNat (h.toNat / 256))
    (.ofNat h.toNat) = v
  have hoctets : readV4 v = some ((.ofNat (g.toNat / 256), .ofNat g.toNat,
      .ofNat (h.toNat / 256), .ofNat h.toNat), []) := by
    rw [← hv, ← List.append_nil (v4Text _ _ _ _)]
    exact readV4_v4Text _ _ _ _ (by simp)
  have htail : readGroups 6 false (':' :: v) = ([g, h], true, []) := by
    have hfive : (5 : Nat) ≠ 0 := by omega
    simp only [readGroups, readChar, Bool.false_eq_true, if_true, if_false, hfive, hoctets,
      group_octets]
  have hback : readGroups 7 true (digits 16 (0xffff : UInt16).toNat ++ ':' :: v) =
      ([0xffff, g, h], true, []) := by
    rw [readGroups_group 0xffff 6 (by simp), htail]
  have hfront : readGroups 8 true (':' :: ':' :: (digits 16 (0xffff : UInt16).toNat ++ ':' :: v)) =
      ([], false, ':' :: ':' :: (digits 16 (0xffff : UInt16).toNat ++ ':' :: v)) :=
    readGroups_stop (.inr ⟨_, rfl⟩) 8 true
  have htext : "::ffff:".toList ++ v =
      ':' :: ':' :: (digits 16 (0xffff : UInt16).toNat ++ ':' :: v) := rfl
  rw [htext]
  obtain ⟨a, ha⟩ : ∃ a, ofGroups? [0, 0, 0, 0, 0, 0xffff, g, h] = some a := ⟨_, rfl⟩
  rw [ha]
  refine ofText?_v6 (readV4_colon _) ?_
  have hgroups : ([] ++ List.replicate (8 - 0 - 3) 0 ++ [0xffff, g, h] : List UInt16) =
      [0, 0, 0, 0, 0, 0xffff, g, h] := rfl
  simp only [readV6, hfront, readChar, if_true, Bool.false_eq_true, if_false,
    Option.bind_eq_bind, Option.bind_some, List.length_nil, List.length_cons, hback, hgroups, ha]
  simp

/-- The three forms of a printed address of eight groups. -/
lemma v6Text_cases (gs : List UInt16) :
    (∃ g h, gs = [0, 0, 0, 0, 0, 0xffff, g, h] ∧
      v6Text gs = "::ffff:".toList ++ v4Text (.ofNat (g.toNat / 256)) (.ofNat g.toNat)
        (.ofNat (h.toNat / 256)) (.ofNat h.toNat)) ∨
      v6Text gs = if 1 < (longestZeros gs).2 then
        groupsText (gs.take (longestZeros gs).1) ++ [':', ':'] ++
          groupsText (gs.drop ((longestZeros gs).1 + (longestZeros gs).2))
      else groupsText gs := by
  unfold v6Text
  split
  · exact .inl ⟨_, _, rfl, rfl⟩
  · exact .inr rfl

lemma ofText?_v6Text (gs : Vector UInt16 8) : ofText? (v6Text gs.toList) = some (.v6 gs) := by
  rcases v6Text_cases gs.toList with ⟨g, h, hgs, htext⟩ | htext
  · rw [htext, ofText?_mapped, ← hgs, ofGroups?_toList]
  · rw [htext]
    split
    next hn => exact ofText?_compressed gs hn (longestZeros_spec _)
    next => exact ofText?_groupsText gs

/-- **A printed address reads as itself.** -/
theorem ofString?_toString (a : Address) : ofString? a.toString = some a := by
  rw [ofString?, toString, String.toList_ofList]
  cases a with
  | v4 a b c d =>
    have h := readV4_v4Text a b c d (u := []) (by simp)
    rw [List.append_nil] at h
    simp [text, ofText?, ofV4Text?, h]
  | v6 gs => exact ofText?_v6Text gs

theorem toString_injective {a b : Address} (h : a.toString = b.toString) : a = b := by
  have ha := ofString?_toString a
  rw [h, ofString?_toString] at ha
  exact (Option.some.inj ha).symm

end NodeWatch.Net.Address
