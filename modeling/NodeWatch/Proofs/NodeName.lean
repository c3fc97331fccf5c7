import NodeWatch.NodeName
import NodeWatch.Proofs.Net.Address.Characters

/-!
Labels, and what the making of names keeps of them.

The label of a display name is one. A name with a suffix is one if it ends like one, that is if its
suffix does: the name in front of it is cut so that everything fits.
-/

namespace NodeWatch.NodeName

open Text

/-- What labels are made of. -/
def IsNameChar (c : Char) : Prop := isLabelChar c = true ∨ c = '-'

/-- All that a label must be but for its end. -/
structure IsStem (s : List Char) : Prop where
  filled : 0 < utf8Length s
  fits : utf8Length s ≤ maxLength
  chars : ∀ c ∈ s, IsNameChar c
  start : s.head? ≠ some '-'

structure IsLabel (s : List Char) : Prop extends IsStem s where
  finish : s.getLast? ≠ some '-'

variable {s base suffix l : List Char} {c : Char} {started gap : Bool}

/-! ### Characters and their number -/

lemma isLabelChar_of_isPrinted (h : Net.Address.IsPrinted c) : isLabelChar c = true := by
  obtain ⟨d, hd, rfl⟩ := h
  have : ∀ k : Fin 16, isLabelChar k.val.digitChar = true := by decide
  exact this ⟨d, hd⟩

/-- Neither a hyphen nor what becomes one is a character of labels. -/
lemma ne_of_isLabelChar (h : isLabelChar c = true) : c ≠ '-' ∧ c ≠ '.' ∧ c ≠ ':' := by
  refine ⟨?_, ?_, ?_⟩ <;> rintro rfl <;> exact absurd h (by decide)

lemma utf8Size_of_isNameChar (h : IsNameChar c) : c.utf8Size = 1 := by
  have hascii : c.val ≤ 0x7f := by
    rcases h with h | rfl
    · simp only [isLabelChar, Bool.or_eq_true, Bool.and_eq_true, decide_eq_true_eq] at h
      have hz : 'z'.val ≤ 0x7f := by decide
      have h9 : '9'.val ≤ 0x7f := by decide
      rcases h with h | h
      · exact UInt32.le_trans h.2 hz
      · exact UInt32.le_trans h.2 h9
    · decide
  simp [Char.utf8Size, hascii]

/-- Names have as many bytes as characters. -/
lemma utf8Length_eq_length (h : ∀ c ∈ s, IsNameChar c) : utf8Length s = s.length := by
  have hfold : ∀ n, s.foldl (fun n c => n + c.utf8Size) n = n + s.length := by
    induction s with
    | nil => simp
    | cons c s ih =>
      intro n
      rw [List.foldl_cons, utf8Size_of_isNameChar (h c List.mem_cons_self),
        ih fun d hd => h d (List.mem_cons_of_mem _ hd), List.length_cons]
      omega
  have h0 := hfold 0
  rwa [Nat.zero_add] at h0

lemma isStem_of (hfilled : s ≠ []) (hfits : s.length ≤ maxLength)
    (hchars : ∀ c ∈ s, IsNameChar c) (hstart : s.head? ≠ some '-') : IsStem s where
  filled := by rwa [utf8Length_eq_length hchars, List.length_pos_iff]
  fits := by rwa [utf8Length_eq_length hchars]
  chars := hchars
  start := hstart

lemma IsStem.ne_nil (h : IsStem s) : s ≠ [] := by
  rintro rfl
  exact absurd h.filled (by decide)

/-! ### Labels of display names -/

lemma mem_words (h : c ∈ words started gap s) : IsNameChar c := by
  induction s generalizing started gap with
  | nil => simp [words] at h
  | cons d s ih =>
    rw [words] at h
    split at h
    next hd =>
      rcases List.mem_append.mp h with h | h
      · split at h
        · rw [List.mem_cons, List.mem_singleton] at h
          rcases h with rfl | rfl
          · exact .inr rfl
          · exact .inl hd
        · obtain rfl := List.mem_singleton.mp h
          exact .inl hd
      · exact ih h
    next => exact ih h

/-- No hyphen stands in front of the first character that is kept. -/
lemma head?_words (h : c ∈ (words false gap s).head?) : isLabelChar c = true := by
  induction s generalizing gap with
  | nil => simp [words] at h
  | cons d s ih =>
    rw [words] at h
    split at h
    next hd =>
      obtain rfl : d = c := by simpa using h
      exact hd
    next => exact ih h

lemma getLast?_dropEndWhile : (dropEndWhile (· = '-') s).getLast? ≠ some '-' := fun h =>
  absurd (not_of_getLast?_dropEndWhile '-' h) (by simp)

lemma dropEndWhile_hyphen (h : s.getLast? ≠ some '-') : dropEndWhile (· = '-') s = s := by
  refine dropEndWhile_of_getLast? fun c hc => decide_eq_false fun he => h ?_
  rw [← he]
  exact hc

lemma label?_eq_none : label? s = none ↔
    dropEndWhile (· = '-') ((words false false (lower s)).take maxLength) = [] := by
  unfold label?
  split
  next hnil => exact iff_of_true rfl hnil
  next hne => exact iff_of_false nofun hne

lemma label?_eq_some : label? s = some l ↔
    dropEndWhile (· = '-') ((words false false (lower s)).take maxLength) = l ∧ l ≠ [] := by
  unfold label?
  split
  next hnil =>
    rw [hnil]
    exact ⟨nofun, fun h => absurd h.1.symm h.2⟩
  next hne =>
    exact ⟨fun h => ⟨Option.some.inj h, Option.some.inj h ▸ hne⟩, fun h => congrArg some h.1⟩

/-- The label of a display name is one. -/
lemma isLabel_of_label? (h : label? s = some l) : IsLabel l := by
  obtain ⟨rfl, hne⟩ := label?_eq_some.mp h
  have hcut := dropEndWhile_isPrefix (· = '-') ((words false false (lower s)).take maxLength)
  have hwords := hcut.trans (List.take_prefix _ _)
  refine ⟨isStem_of hne ?_ (fun c hc => mem_words (hwords.subset hc)) fun hstart => ?_,
    getLast?_dropEndWhile⟩
  · exact Nat.le_trans hcut.length_le (List.length_take_le _ _)
  · rw [← head?_of_prefix hne hwords] at hstart
    exact (ne_of_isLabelChar (head?_words hstart)).1 rfl

/-! ### Names with a suffix -/

/-- The part in front of the suffix. -/
def cutFor (base suffix : List Char) : List Char :=
  dropEndWhile (· = '-') (base.take (maxLength - (utf8Length suffix + 1)))

lemma withSuffix_eq (base suffix : List Char) :
    withSuffix base suffix = cutFor base suffix ++ '-' :: suffix := rfl

lemma getLast?_withSuffix (hs : suffix ≠ []) :
    (withSuffix base suffix).getLast? = suffix.getLast? :=
  Net.Address.getLast?_of_suffix hs ⟨cutFor base suffix ++ ['-'], by simp [withSuffix_eq]⟩

/-- What has room in front of the suffix is not cut. -/
lemma withSuffix_of_length_le (hend : base.getLast? ≠ some '-')
    (hchars : ∀ c ∈ suffix, IsNameChar c) (hroom : base.length + 1 + suffix.length ≤ maxLength) :
    withSuffix base suffix = base ++ '-' :: suffix := by
  have hlength := utf8Length_eq_length hchars
  rw [withSuffix_eq, cutFor, List.take_of_length_le (by omega), dropEndWhile_hyphen hend]

/-- Something of the name stays in front of a suffix that leaves room for it. -/
lemma IsStem.withSuffix (hbase : IsStem base)
    (hchars : ∀ c ∈ suffix, IsNameChar c) (hroom : suffix.length + 1 < maxLength) :
    IsStem (withSuffix base suffix) := by
  obtain ⟨c, r, rfl⟩ := List.exists_cons_of_ne_nil hbase.ne_nil
  have hc : c ≠ '-' := fun h => hbase.start (by simp [h])
  have hroom' : utf8Length suffix + 1 < maxLength := by rwa [utf8Length_eq_length hchars]
  obtain ⟨n, hn⟩ : ∃ n, maxLength - (utf8Length suffix + 1) = n + 1 :=
    ⟨maxLength - (utf8Length suffix + 1) - 1, by omega⟩
  have hstart : [c] <+: cutFor (c :: r) suffix := by
    have h := prefix_dropEndWhile (s := [c]) (p := fun d => d = '-') (by simpa using hc) (r.take n)
    rwa [cutFor, hn]
  have htaken : cutFor (c :: r) suffix <+: (c :: r).take (n + 1) := by
    rw [cutFor, hn]
    exact dropEndWhile_isPrefix _ _
  have hhead : (withSuffix (c :: r) suffix).head? = some c := by
    rw [withSuffix_eq]
    exact head?_of_prefix (by simp) (hstart.trans (List.prefix_append _ _))
  refine isStem_of (by simp [withSuffix_eq]) ?_ (fun d hd => ?_) (by simpa [hhead] using hc)
  · have hcut := Nat.le_trans htaken.length_le (List.length_take_le _ _)
    rw [utf8Length_eq_length hchars] at hn
    rw [withSuffix_eq, List.length_append, List.length_cons]
    omega
  · rw [withSuffix_eq, List.mem_append, List.mem_cons] at hd
    rcases hd with hd | rfl | hd
    · exact hbase.chars d (List.mem_of_mem_take (htaken.subset hd))
    · exact .inr rfl
    · exact hchars d hd

/-! ### Addresses in names -/

lemma isNameChar_of_mem_dashed {a : Net.Address} (h : c ∈ dashed a) : IsNameChar c := by
  obtain ⟨d, hd, rfl⟩ := List.mem_map.mp h
  rcases Net.Address.mem_text hd with hprinted | rfl | rfl
  · by_cases hsep : d = '.' ∨ d = ':'
    · exact .inr (if_pos hsep)
    · rw [if_neg hsep]
      exact .inl (isLabelChar_of_isPrinted hprinted)
  · exact .inr rfl
  · exact .inr rfl

lemma length_dashed_le (a : Net.Address) : (dashed a).length ≤ 39 := by
  rw [dashed, List.length_map]
  exact a.length_text_le

lemma dashed_ne_nil (a : Net.Address) : dashed a ≠ [] := by
  rw [dashed, ne_eq, List.map_eq_nil_iff]
  exact a.text_ne_nil

/-- The hyphen for the colons after which nothing is printed any more. -/
lemma getLast?_dashed {a : Net.Address} :
    (dashed a).getLast? = some '-' ↔ a.text.getLast? = some ':' := by
  rw [dashed, List.getLast?_map, Option.map_eq_some_iff]
  constructor
  · rintro ⟨c, hc, hhyphen⟩
    rcases Net.Address.getLast?_text hc with hprinted | rfl
    · -- a digit is neither a hyphen nor does it become one
      obtain ⟨hne, hdot, hcolon⟩ := ne_of_isLabelChar (isLabelChar_of_isPrinted hprinted)
      rw [if_neg (by simp [hdot, hcolon])] at hhyphen
      exact absurd hhyphen hne
    · exact hc
  · intro h
    exact ⟨':', h, rfl⟩

end NodeWatch.NodeName
