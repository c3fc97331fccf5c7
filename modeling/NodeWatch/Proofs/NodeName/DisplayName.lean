import Mathlib.Data.List.Chain
import NodeWatch.Proofs.NodeName

/-!
The label of a display name.

It is what the name in lower case leaves when everything between letters and digits becomes one
hyphen, the hyphens at the ends go and the rest is cut to the length of a label. Names that are
labels already stay as they are.
-/

namespace NodeWatch.NodeName

open Text

variable {s t l : List Char} {c : Char} {started gap : Bool}

/-! ### Lower case -/

/-- What a character leaves in a label. Outside ASCII only the capital I with a dot and the Kelvin
sign leave anything. -/
def kept (c : Char) : List Char :=
  if isLabelChar c then [c]
  else if 'A' ≤ c ∧ c ≤ 'Z' then [Char.ofNat (c.toNat + 32)]
  else if c = Char.ofNat 0x130 then ['i']
  else if c = Char.ofNat 0x212A then ['k']
  else []

lemma isLabelChar_iff : isLabelChar c = true ↔
    (97 ≤ c.toNat ∧ c.toNat ≤ 122) ∨ (48 ≤ c.toNat ∧ c.toNat ≤ 57) := by
  simp only [isLabelChar, Bool.or_eq_true, Bool.and_eq_true, decide_eq_true_eq]
  exact Iff.rfl

lemma isLabelChar_of_ascii_lt (h : 128 ≤ c.toNat) : isLabelChar c = false := by
  rw [← Bool.not_eq_true, isLabelChar_iff]
  omega

lemma isLabelChar_ofNat {n : Nat} (h : 128 ≤ n) : isLabelChar (Char.ofNat n) = false := by
  by_cases hvalid : n.isValidChar
  · refine isLabelChar_of_ascii_lt ?_
    have hnumber : (Char.ofNat n).toNat = n := by rw [Char.ofNat, dif_pos hvalid]; rfl
    rwa [hnumber]
  · have hzero : Char.ofNat n = Char.ofNat 0 := by rw [Char.ofNat, dif_neg hvalid]; rfl
    rw [hzero]
    rfl

/-- No run of the table ends in ASCII, but for that of the Kelvin sign. -/
lemma caseRuns_above : ∀ r ∈ caseRuns, 128 ≤ (r.first : Int) + r.shift ∨
    r.first = 0x212A ∧ r.last = 0x212A := by
  decide +kernel

lemma filter_lowerChar (c : Char) : (lowerChar c).filter isLabelChar = kept c := by
  by_cases hascii : c.toNat < 128
  · have hall : ∀ n : Fin 128, (lowerChar (Char.ofNat n)).filter isLabelChar =
        kept (Char.ofNat n) := by decide +kernel
    have hc := hall ⟨c.toNat, hascii⟩
    rwa [Char.ofNat_toNat] at hc
  by_cases hspecial : c = Char.ofNat 0x130 ∨ c = Char.ofNat 0x212A
  · rcases hspecial with rfl | rfl <;> decide +kernel
  have hother : c ≠ Char.ofNat 0x130 ∧ c ≠ Char.ofNat 0x212A := not_or.mp hspecial
  have hnumber : ∀ n, c.toNat = n → c = Char.ofNat n := fun n hn => hn ▸ (Char.ofNat_toNat c).symm
  have hcapital : ¬ c ≤ 'Z' := fun hle => absurd (show c.toNat ≤ 90 from hle) (by omega)
  have hlabel := isLabelChar_of_ascii_lt (c := c) (by omega)
  have hkept : kept c = [] := by simp [kept, hlabel, hcapital, hother]
  rw [hkept, lowerChar, if_neg hascii, if_neg fun hn => hother.1 (hnumber _ hn)]
  split
  next r hr =>
    have hhas : r.has c.toNat = true := by simpa using List.find?_some hr
    simp only [CaseRun.has, Bool.and_eq_true, decide_eq_true_eq] at hhas
    rcases caseRuns_above r (List.mem_of_find?_eq_some hr) with habove | hkelvin
    · simp [isLabelChar_ofNat (n := (c.toNat + r.shift).toNat) (by omega)]
    · exact absurd (hnumber 0x212A (by omega)) hother.2
  next => simp [hlabel]

/-- The letters and digits of a text in lower case are those that its characters leave. -/
lemma filter_lower (s : List Char) : (lower s).filter isLabelChar = s.flatMap kept := by
  rw [lower, List.filter_flatMap]
  exact List.flatMap_congr fun c _ => filter_lowerChar c

lemma lower_append (s t : List Char) : lower (s ++ t) = lower s ++ lower t :=
  List.flatMap_append

lemma lower_of_nameChars (h : ∀ c ∈ s, IsNameChar c) : lower s = s := by
  have hone : ∀ c, IsNameChar c → lowerChar c = [c] := by
    intro c hc
    have hall : ∀ n : Fin 128, IsNameChar (Char.ofNat n) →
        lowerChar (Char.ofNat n) = [Char.ofNat n] := by unfold IsNameChar; decide +kernel
    have hascii : c.toNat < 128 := by
      rcases hc with hc | rfl
      · by_contra hge
        rw [isLabelChar_of_ascii_lt (by omega)] at hc
        cases hc
      · decide
    have hc' := hall ⟨c.toNat, hascii⟩
    rw [Char.ofNat_toNat] at hc'
    exact hc' hc
  calc lower s = s.flatMap fun c => [c] := List.flatMap_congr fun c hc => hone c (h c hc)
    _ = s := List.flatMap_singleton' s

/-! ### Words -/

/-- No hyphen after another one. -/
def Apart (c d : Char) : Prop := c = '-' → d ≠ '-'

lemma filter_words : (words started gap s).filter isLabelChar = s.filter isLabelChar := by
  induction s generalizing started gap with
  | nil => rfl
  | cons c r ih =>
    rw [words]
    by_cases hc : isLabelChar c = true
    · have hhyphen : isLabelChar '-' = false := by decide
      rw [if_pos hc, List.filter_append, ih, List.filter_cons_of_pos hc]
      split <;> simp [hc, hhyphen]
    · rw [if_neg hc, ih, List.filter_cons_of_neg hc]

lemma isChain_words : (words started gap s).IsChain Apart := by
  induction s generalizing started gap with
  | nil => exact .nil
  | cons c r ih =>
    rw [words]
    split
    next hc =>
      have hne := (ne_of_isLabelChar hc).1
      have hletter : (c :: words true false r).IsChain Apart :=
        List.isChain_cons.mpr ⟨fun _ _ h => absurd h hne, ih⟩
      split
      · exact List.isChain_cons_cons.mpr ⟨fun _ => hne, hletter⟩
      · exact hletter
    next => exact ih

lemma not_infix_of_isChain (h : s.IsChain Apart) : ¬ ['-', '-'] <:+: s := by
  intro hdouble
  have hpair := h.infix hdouble
  simp [Apart] at hpair

lemma words_eq_nil (h : ∀ c ∈ s, isLabelChar c = false) : words started gap s = [] := by
  induction s generalizing started gap with
  | nil => rfl
  | cons c r ih =>
    rw [words, if_neg (by simp [h c List.mem_cons_self])]
    exact ih fun d hd => h d (List.mem_cons_of_mem _ hd)

/-- Words with single hyphens between them are taken as they are. -/
lemma words_eq_self (hchars : ∀ c ∈ s, IsNameChar c) (hchain : s.IsChain Apart)
    (hend : s.getLast? ≠ some '-') : words true false s = s := by
  induction s with
  | nil => rfl
  | cons c r ih =>
    have hrest : words true false r = r := by
      refine ih (fun d hd => hchars d (List.mem_cons_of_mem _ hd)) hchain.tail ?_
      cases r with
      | nil => simp
      | cons d r => rwa [List.getLast?_cons_cons] at hend
    rcases hchars c List.mem_cons_self with hc | rfl
    · simp [words, hc, hrest]
    · cases r with
      | nil => exact absurd rfl hend
      | cons d r =>
        have hd : isLabelChar d = true :=
          (hchars d (by simp)).resolve_right ((List.isChain_cons_cons.mp hchain).1 rfl)
        have hhyphen : isLabelChar '-' = false := by decide
        simp only [words, hd, hhyphen, if_true, Bool.false_eq_true, if_false, Bool.and_self,
          Bool.and_false, List.singleton_append] at hrest ⊢
        rw [List.cons_append, List.singleton_append, hrest]

/-! ### The label -/

lemma label?_eq_none_iff : label? s = none ↔ ∀ c ∈ lower s, isLabelChar c = false := by
  rw [label?_eq_none]
  constructor
  · intro hnil
    by_contra hsome
    have hne : words false false (lower s) ≠ [] := by
      intro hwords
      refine hsome fun c hc => ?_
      have hfilter : (words false false (lower s)).filter isLabelChar = _ := filter_words
      rw [hwords, List.filter_nil, eq_comm, List.filter_eq_nil_iff] at hfilter
      simpa using hfilter c hc
    obtain ⟨d, w, hw⟩ := List.exists_cons_of_ne_nil hne
    have hd : isLabelChar d = true := head?_words (s := lower s) (by rw [hw]; rfl)
    -- the first character is never cut
    have hkept : [d] <+: dropEndWhile (· = '-') ([d] ++ w.take 62) :=
      prefix_dropEndWhile (by simpa using (ne_of_isLabelChar hd).1) _
    rw [hw, maxLength, List.take_succ_cons] at hnil
    rw [List.singleton_append, hnil] at hkept
    exact List.cons_ne_nil d [] (List.prefix_nil.mp hkept)
  · intro hnone
    rw [words_eq_nil hnone]
    rfl

/-- A label has itself as its label. -/
lemma label?_eq_self (h : IsLabel l) (hchain : l.IsChain Apart) : label? l = some l := by
  obtain ⟨c, r, rfl⟩ := List.exists_cons_of_ne_nil h.ne_nil
  have hc : isLabelChar c = true :=
    (h.chars c List.mem_cons_self).resolve_right fun he => h.start (by simp [he])
  have hwords : words false false (c :: r) = c :: r := by
    have hrest := words_eq_self h.chars hchain h.finish
    rwa [words, if_pos hc, Bool.and_false] at hrest ⊢
  have hfits := h.fits
  rw [utf8Length_eq_length h.chars] at hfits
  rw [label?_eq_some, lower_of_nameChars h.chars, hwords, List.take_of_length_le hfits]
  exact ⟨dropEndWhile_hyphen h.finish, List.cons_ne_nil _ _⟩

/-! ### The steps -/

/-- The text with one hyphen for each run of other characters; `inRun` behind one of them. -/
def hyphenated : (inRun : Bool) → List Char → List Char
  | _, [] => []
  | inRun, c :: r =>
    if isLabelChar c then c :: hyphenated false r
    else if inRun then hyphenated true r
    else '-' :: hyphenated true r

/-- What is left of a display name after each step: blanks around it cut, lower case, hyphens for
other characters, hyphens around it cut, the length of a label, hyphens at the end cut again. -/
def stepwise (s : List Char) : List Char :=
  dropEndWhile (· = '-')
    ((trimBy (· = '-') (hyphenated false (lower (trim s)))).take maxLength)

lemma dropEndWhile_append_label (hc : isLabelChar c = true) (s t : List Char) :
    dropEndWhile (· = '-') (s ++ c :: t) = s ++ c :: dropEndWhile (· = '-') t :=
  dropEndWhile_append_cons (by simpa using (ne_of_isLabelChar hc).1) s t

/-- Hyphens are cut at the end as they come. -/
lemma words_of_started : words true false s = dropEndWhile (· = '-') (hyphenated false s) ∧
    words true true s = dropEndWhile (· = '-') ('-' :: hyphenated true s) := by
  induction s with
  | nil => exact ⟨rfl, rfl⟩
  | cons c r ih =>
    by_cases hc : isLabelChar c = true
    · have hfirst := dropEndWhile_append_label hc [] (hyphenated false r)
      have hsecond := dropEndWhile_append_label hc ['-'] (hyphenated false r)
      simp only [List.nil_append, List.singleton_append] at hfirst hsecond
      simp [words, hyphenated, hc, hfirst, hsecond, ih.1]
    · simp [words, hyphenated, hc, ih.2]

lemma words_eq_trimBy (inRun : Bool) :
    words false gap s = trimBy (· = '-') (hyphenated inRun s) := by
  induction s generalizing gap inRun with
  | nil => rfl
  | cons c r ih =>
    rw [words, hyphenated, trimBy]
    by_cases hc : isLabelChar c = true
    · have hfirst := dropEndWhile_append_label hc [] (hyphenated false r)
      rw [List.nil_append, List.nil_append] at hfirst
      rw [if_pos hc, if_pos hc,
        List.dropWhile_cons_of_neg (by simpa using (ne_of_isLabelChar hc).1), hfirst,
        words_of_started.1]
      rfl
    · rw [if_neg hc, if_neg hc, ih true, trimBy]
      cases inRun <;> rfl

/-- Behind and before all words nothing else counts. -/
lemma words_append_left (ht : ∀ c ∈ t, isLabelChar c = false) :
    words started gap (s ++ t) = words started gap s := by
  induction s generalizing started gap with
  | nil => exact words_eq_nil ht
  | cons c r ih => simp only [List.cons_append, words, ih]

lemma words_append_right (hs : ∀ c ∈ s, isLabelChar c = false) :
    words false gap (s ++ t) = words false false t := by
  induction s generalizing gap with
  | nil => cases t <;> simp [words]
  | cons c r ih =>
    rw [List.cons_append, words, if_neg (by simp [hs c List.mem_cons_self])]
    exact ih fun d hd => hs d (List.mem_cons_of_mem _ hd)

/-- Blanks leave nothing in a label. -/
lemma kept_of_isBlank (h : isBlank c = true) : kept c = [] := by
  simp only [isBlank, Bool.or_eq_true, Bool.and_eq_true, decide_eq_true_eq] at h
  have hlabel : isLabelChar c = false := by
    rw [← Bool.not_eq_true, isLabelChar_iff]
    omega
  have hcapital : ¬ ('A' ≤ c ∧ c ≤ 'Z') := fun hc => by
    have hrange : 65 ≤ c.toNat ∧ c.toNat ≤ 90 := hc
    omega
  have hi : c ≠ Char.ofNat 0x130 := fun hc => by
    have hn : c.toNat = 0x130 := hc ▸ rfl
    omega
  have hk : c ≠ Char.ofNat 0x212A := fun hc => by
    have hn : c.toNat = 0x212A := hc ▸ rfl
    omega
  simp [kept, hlabel, hcapital, hi, hk]

lemma isLabelChar_of_mem_lower (h : ∀ c ∈ s, isBlank c = true) :
    ∀ c ∈ lower s, isLabelChar c = false := by
  have hnone : (lower s).filter isLabelChar = [] := by
    rw [filter_lower, List.flatMap_eq_nil_iff]
    exact fun c hc => kept_of_isBlank (h c hc)
  simpa using List.filter_eq_nil_iff.mp hnone

lemma words_lower_trim (s : List Char) :
    words false false (lower (trim s)) = words false false (lower s) := by
  obtain ⟨u, v, hs, hu, hv⟩ := exists_trim s
  conv_rhs => rw [hs]
  rw [lower_append, lower_append, words_append_right (isLabelChar_of_mem_lower hu),
    words_append_left (isLabelChar_of_mem_lower hv)]

lemma label?_eq_stepwise (s : List Char) :
    label? s = if stepwise s = [] then none else some (stepwise s) := by
  have hwords : words false false (lower s) =
      trimBy (· = '-') (hyphenated false (lower (trim s))) := by
    rw [← words_lower_trim]
    exact words_eq_trimBy false
  rw [stepwise, ← hwords]
  split
  next hnil => exact label?_eq_none.mpr hnil
  next hne => exact label?_eq_some.mpr ⟨rfl, hne⟩

/-! ### Labels of all names -/

/-- **The label of a display name.** It is what the steps leave of the name. There is none exactly
if the name in lower case has no letter and no digit; and there are no more of these than the
characters of ASCII and two others leave. Otherwise it is a label without a doubled hyphen, whose
letters and digits are the first ones of the name in lower case, and it is its own label. -/
theorem label_of_display_name (s : List Char) :
    label? s = (if stepwise s = [] then none else some (stepwise s)) ∧
      (lower s).filter isLabelChar = s.flatMap kept ∧
      (label? s = none ↔ ∀ c ∈ lower s, isLabelChar c = false) ∧
      ∀ l, label? s = some l →
        (0 < l.length ∧ l.length ≤ 63) ∧ (∀ c ∈ l, isLabelChar c = true ∨ c = '-') ∧
        l.head? ≠ some '-' ∧ l.getLast? ≠ some '-' ∧ ¬ ['-', '-'] <:+: l ∧
        l.filter isLabelChar <+: (lower s).filter isLabelChar ∧
        label? l = some l := by
  refine ⟨label?_eq_stepwise s, filter_lower s, label?_eq_none_iff, fun l hl => ?_⟩
  have hlabel := isLabel_of_label? hl
  have hfits := hlabel.fits
  rw [utf8Length_eq_length hlabel.chars] at hfits
  obtain ⟨hcut, hne⟩ := label?_eq_some.mp hl
  have hwords : l <+: words false false (lower s) := by
    rw [← hcut]
    exact (dropEndWhile_isPrefix _ _).trans (List.take_prefix _ _)
  have hchain : l.IsChain Apart := isChain_words.infix hwords.isInfix
  have hletters := hwords.filter isLabelChar
  rw [filter_words] at hletters
  exact ⟨⟨List.length_pos_iff.mpr hne, hfits⟩, hlabel.chars, hlabel.start, hlabel.finish,
    not_infix_of_isChain hchain, hletters, label?_eq_self hlabel hchain⟩

/-- A name with blanks around it, capital letters and a mark between its words. -/
theorem label_of_display_name_in_kitchen :
    let s := " Kitchen Pi #2 ".toList
    label? s = some "kitchen-pi-2".toList ∧
      "kitchenpi2".toList <+: (lower s).filter isLabelChar ∧
      label? "kitchen-pi-2".toList = some "kitchen-pi-2".toList := by
  intro s
  have hlabel : label? s = some "kitchen-pi-2".toList := by decide
  obtain ⟨-, -, -, -, -, hletters, hself⟩ := (label_of_display_name s).2.2.2 _ hlabel
  exact ⟨hlabel, hletters, hself⟩

end NodeWatch.NodeName
