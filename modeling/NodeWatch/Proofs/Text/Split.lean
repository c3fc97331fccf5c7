import Mathlib.Data.List.DropRight
import NodeWatch.Text.Blank
import NodeWatch.Text.Split

/-!
Cutting texts at separators and at their ends.
-/

namespace NodeWatch.Text

variable {sep : Char} {s t u w : List Char}

/-! ### Parts -/

/-- The parts are those of the library. -/
lemma split_eq_splitOn (sep : Char) (s : List Char) : split sep s = s.splitOn sep := by
  induction s with
  | nil => rfl
  | cons c r ih =>
    rw [List.splitOn, List.splitOnP_cons_eq_if_modifyHead, ← List.splitOn, ← ih, split]
    by_cases hc : c = sep
    · rw [if_pos hc, if_pos (by simpa using hc)]
    · rw [if_neg hc, if_neg (by simpa using hc)]
      cases hr : split sep r with
      | nil => exact absurd hr (split_ne_nil sep r)
      | cons w ws => rfl

lemma join_eq_intercalate (sep : List Char) (ws : List (List Char)) :
    join sep ws = sep.intercalate ws := by
  induction ws with
  | nil => rfl
  | cons w ws ih =>
    cases ws with
    | nil => simp [join]
    | cons v ws => rw [join, ih, List.intercalate_cons_cons, List.append_assoc]

lemma join_split (sep : Char) (s : List Char) : join [sep] (split sep s) = s := by
  rw [join_eq_intercalate, split_eq_splitOn, List.intercalate_splitOn]

lemma mem_join {sep : List Char} {ws : List (List Char)} {c : Char} (h : c ∈ join sep ws) :
    c ∈ sep ∨ ∃ w ∈ ws, c ∈ w := by
  induction ws with
  | nil => simp [join] at h
  | cons w ws ih =>
    cases ws with
    | nil => exact .inr ⟨w, List.mem_cons_self, h⟩
    | cons v ws =>
      rw [join, List.append_assoc, List.mem_append, List.mem_append] at h
      rcases h with h | h | h
      · exact .inr ⟨w, List.mem_cons_self, h⟩
      · exact .inl h
      · exact (ih h).imp_right fun ⟨u, hu, hc⟩ => ⟨u, List.mem_cons_of_mem _ hu, hc⟩

/-- A separator divides the parts before it from those after it. -/
lemma split_append (sep : Char) (s t : List Char) :
    split sep (s ++ sep :: t) = split sep s ++ split sep t := by
  rw [split_eq_splitOn, split_eq_splitOn, split_eq_splitOn]
  exact List.splitOnP_append_cons _ _ (by simp)

lemma split_of_notMem (h : sep ∉ s) : split sep s = [s] := by
  induction s with
  | nil => rfl
  | cons c r ih =>
    rw [List.mem_cons, not_or] at h
    rw [split, if_neg (Ne.symm h.1), ih h.2]

lemma notMem_of_mem_split (h : w ∈ split sep s) : sep ∉ w := by
  induction s generalizing w with
  | nil =>
    rw [List.mem_singleton.mp h]
    simp
  | cons c r ih =>
    rw [split] at h
    split at h
    next =>
      rcases List.mem_cons.mp h with rfl | h
      · simp
      · exact ih h
    next hc =>
      split at h
      next hr => exact absurd hr (split_ne_nil sep r)
      next v vs hr =>
        rcases List.mem_cons.mp h with rfl | h
        · have hv := ih (w := v) (by simp [hr])
          simp [Ne.symm hc, hv]
        · exact ih (by simp [hr, h])

/-- Whatever is joined is split again, part by part. -/
lemma split_join (sep : Char) {ws : List (List Char)} (h : ws ≠ []) :
    split sep (join [sep] ws) = ws.flatMap (split sep) := by
  induction ws with
  | nil => exact absurd rfl h
  | cons w ws ih =>
    cases ws with
    | nil => simp [join]
    | cons v ws =>
      rw [join, List.append_assoc, List.singleton_append, split_append, ih (by simp)]
      rfl

lemma split_join_of_notMem {ws : List (List Char)} (h : ws ≠ []) (hsep : ∀ w ∈ ws, sep ∉ w) :
    split sep (join [sep] ws) = ws := by
  rw [split_join sep h]
  calc ws.flatMap (split sep) = ws.flatMap fun w => [w] :=
        List.flatMap_congr fun w hw => split_of_notMem (hsep w hw)
    _ = ws := List.flatMap_singleton' ws

lemma toList_joinWith (sep : String) (ws : List String) :
    (joinWith sep ws).toList = join sep.toList (ws.map String.toList) := by
  rw [joinWith, String.toList_intercalate, join_eq_intercalate]

/-! ### Ends -/

lemma dropEndWhile_concat_pos {p : Char → Bool} {c : Char} (h : p c = true) (s : List Char) :
    dropEndWhile p (s ++ [c]) = dropEndWhile p s :=
  List.rdropWhile_concat_pos p s c h

lemma dropEndWhile_of_getLast? {p : Char → Bool} (h : ∀ c ∈ s.getLast?, p c = false) :
    dropEndWhile p s = s := by
  refine List.rdropWhile_eq_self_iff.mpr fun hs => ?_
  simp [h _ (List.getLast?_eq_some_getLast hs)]

lemma dropEndWhile_isPrefix (p : Char → Bool) (s : List Char) : dropEndWhile p s <+: s :=
  List.rdropWhile_prefix p s

lemma head?_of_prefix (hs : s ≠ []) (h : s <+: t) : t.head? = s.head? := by
  obtain ⟨r, rfl⟩ := h
  exact List.head?_append_of_ne_nil s hs

/-- What is left does not end with what is cut. -/
lemma not_of_getLast?_dropEndWhile {p : Char → Bool} :
    ∀ c ∈ (dropEndWhile p s).getLast?, p c = false := by
  intro c hc
  have hne : dropEndWhile p s ≠ [] := by
    intro hnil
    rw [hnil] at hc
    cases hc
  rw [List.getLast?_eq_some_getLast hne, Option.mem_some_iff] at hc
  subst hc
  exact Bool.eq_false_iff.mpr (List.rdropWhile_last_not p s hne)

/-- Nothing is cut before what stays. -/
lemma dropEndWhile_append_cons {p : Char → Bool} {c : Char} (h : p c = false) (s t : List Char) :
    dropEndWhile p (s ++ c :: t) = s ++ c :: dropEndWhile p t := by
  induction t using List.reverseRecOn with
  | nil =>
    rw [dropEndWhile_of_getLast? (by simpa using h)]
    rfl
  | append_singleton t d ih =>
    have hassoc : s ++ c :: (t ++ [d]) = s ++ c :: t ++ [d] := by simp
    rw [hassoc]
    cases hd : p d with
    | true => rw [dropEndWhile_concat_pos hd, dropEndWhile_concat_pos hd, ih]
    | false =>
      have hstays (l : List Char) : dropEndWhile p (l ++ [d]) = l ++ [d] :=
        dropEndWhile_of_getLast? (by simpa using hd)
      rw [hstays, hstays, List.append_assoc, List.cons_append]

lemma beforeEnd_append (s t : List Char) : beforeEnd t (s ++ t) = some s := by
  have hsuffix : t.isSuffixOf (s ++ t) = true :=
    List.isSuffixOf_iff_suffix.mpr (List.suffix_append s t)
  rw [beforeEnd, if_pos hsuffix]
  simp

/-- Only blanks at the ends are cut. -/
lemma trim_of_ends (hstart : ∀ c ∈ s.head?, isBlank c = false)
    (hend : ∀ c ∈ s.getLast?, isBlank c = false) : trim s = s := by
  have hfront : s.dropWhile isBlank = s := by
    cases s with
    | nil => rfl
    | cons c r => exact List.dropWhile_cons_of_neg (by simp [hstart c rfl])
  rw [trim, trimBy, hfront]
  exact dropEndWhile_of_getLast? hend

lemma trim_eq_self (h : ∀ c ∈ s, isBlank c = false) : trim s = s :=
  trim_of_ends (fun c hc => h c (List.mem_of_mem_head? hc))
    fun c hc => h c (List.mem_of_mem_getLast? hc)

lemma isBlank_head?_trim : ∀ c ∈ (trim s).head?, isBlank c = false := by
  intro c hc
  have hne : trim s ≠ [] := by
    intro hnil
    rw [hnil] at hc
    cases hc
  have hstart := head?_of_prefix hne (dropEndWhile_isPrefix isBlank (s.dropWhile isBlank))
  have hfront := List.head?_dropWhile_not isBlank s
  rw [Option.mem_def.mp hc] at hstart
  rwa [hstart] at hfront

lemma isBlank_getLast?_trim : ∀ c ∈ (trim s).getLast?, isBlank c = false :=
  not_of_getLast?_dropEndWhile

@[simp] lemma trim_trim (s : List Char) : trim (trim s) = trim s :=
  trim_of_ends isBlank_head?_trim isBlank_getLast?_trim

lemma prefix_dropEndWhile {p : Char → Bool} (h : ∀ c ∈ s, p c = false) (t : List Char) :
    s <+: dropEndWhile p (s ++ t) := by
  induction t using List.reverseRecOn with
  | nil =>
    have hkept : dropEndWhile p s = s :=
      dropEndWhile_of_getLast? fun c hc => h c (List.mem_of_mem_getLast? hc)
    simp only [List.append_nil, hkept, List.prefix_rfl]
  | append_singleton t c ih =>
    rw [← List.append_assoc]
    cases hc : p c with
    | true =>
      rw [dropEndWhile_concat_pos hc]
      exact ih
    | false =>
      rw [dropEndWhile_of_getLast? (by simpa using hc), List.append_assoc]
      exact List.prefix_append _ _

/-- What is cut is blank. -/
lemma exists_trim (s : List Char) : ∃ u v, s = u ++ (trim s ++ v) ∧
    (∀ c ∈ u, isBlank c = true) ∧ ∀ c ∈ v, isBlank c = true := by
  refine ⟨s.takeWhile isBlank, ((s.dropWhile isBlank).reverse.takeWhile isBlank).reverse, ?_,
    fun c => List.mem_takeWhile_imp, fun c hc => List.mem_takeWhile_imp (List.mem_reverse.mp hc)⟩
  rw [trim, trimBy, dropEndWhile, ← List.reverse_append, List.takeWhile_append_dropWhile,
    List.reverse_reverse, List.takeWhile_append_dropWhile]

lemma trim_sublist (s : List Char) : (trim s).Sublist s :=
  (List.rdropWhile_prefix _ _).sublist.trans (List.dropWhile_sublist _)

/-- Separators at the end only add empty parts. -/
lemma mem_split_of_mem_dropEndWhile (h : w ∈ split sep (dropEndWhile (· = sep) s)) :
    w ∈ split sep s := by
  induction s using List.reverseRecOn with
  | nil => exact h
  | append_singleton s c ih =>
    by_cases hc : c = sep
    · subst hc
      rw [dropEndWhile_concat_pos (by simp)] at h
      rw [split_append]
      exact List.mem_append_left _ (ih h)
    · rwa [dropEndWhile_of_getLast? (by simpa using hc)] at h

lemma mem_split_of_mem_dropWhile (h : w ∈ split sep (s.dropWhile (· = sep))) :
    w ∈ split sep s := by
  induction s with
  | nil => exact h
  | cons c r ih =>
    by_cases hc : c = sep
    · subst hc
      rw [List.dropWhile_cons_of_pos (by simp)] at h
      rw [split, if_pos rfl]
      exact List.mem_cons_of_mem _ (ih h)
    · rwa [List.dropWhile_cons_of_neg (by simpa using hc)] at h

lemma mem_split_of_mem_trimBy (h : w ∈ split sep (trimBy (· = sep) s)) : w ∈ split sep s :=
  mem_split_of_mem_dropWhile (mem_split_of_mem_dropEndWhile h)

end NodeWatch.Text
