import NodeWatch.Proofs.NodeName
import NodeWatch.Proofs.Reconcile.FirstFree

/-!
The names that are tried for a node.

Each is made of the characters of labels and has room in one, and nothing of the address or of the
random end is cut off. They are labels unless they end with an address whose printed form ends with
the groups it leaves out.
-/

namespace NodeWatch.Reconcile

open NodeName

variable {o : Observation} {base suffix n : List Char}

/-- The random end of a name. -/
structure IsRandomEnd (suffix : List Char) : Prop where
  length : suffix.length = 4
  chars : ∀ c ∈ suffix, isLabelChar c = true

lemma IsRandomEnd.ne_nil (h : IsRandomEnd suffix) : suffix ≠ [] := by
  rintro rfl
  cases h.length

lemma IsRandomEnd.getLast?_ne (h : IsRandomEnd suffix) : suffix.getLast? ≠ some '-' := fun hlast =>
  (ne_of_isLabelChar (h.chars _ (List.mem_of_getLast? hlast))).1 rfl

/-- A label of the display name, or a name that ends with the address. -/
lemma baseName_cases (o : Observation) :
    IsLabel (baseName o) ∨ baseName o = "node-".toList ++ dashed o.address := by
  unfold baseName
  cases hlabel : (o.displayName?.map String.toList).bind label? with
  | none => exact .inr rfl
  | some l =>
    obtain ⟨s, -, hl⟩ := Option.bind_eq_some_iff.mp hlabel
    exact .inl (isLabel_of_label? hl)

lemma isStem_baseName (o : Observation) : IsStem (baseName o) := by
  rcases baseName_cases o with h | h
  · exact h.toIsStem
  · have hlength := length_dashed_le o.address
    rw [h]
    refine isStem_of (by simp) ?_ (fun c hc => ?_) (by simp)
    · simp only [List.length_append, maxLength]
      have : "node-".toList.length = 5 := rfl
      omega
    · rcases List.mem_append.mp hc with hc | hc
      · have hall : "node-".toList.all (fun c => isLabelChar c || c = '-') = true := by decide
        simpa [IsNameChar] using List.all_eq_true.mp hall c hc
      · exact isNameChar_of_mem_dashed hc

lemma isStem_withAddress (o : Observation) :
    IsStem (withSuffix (baseName o) (dashed o.address)) := by
  have hlength := length_dashed_le o.address
  exact (isStem_baseName o).withSuffix (fun c hc => isNameChar_of_mem_dashed hc)
    (by rw [maxLength]; omega)

lemma isLabel_withRandomEnd (o : Observation) (h : IsRandomEnd suffix) :
    IsLabel (withSuffix (baseName o) suffix) where
  toIsStem := (isStem_baseName o).withSuffix (fun c hc => .inl (h.chars c hc))
    (by rw [h.length, maxLength]; omega)
  finish := by
    rw [getLast?_withSuffix h.ne_nil]
    exact h.getLast?_ne

/-- What ends with the address ends as the address does. -/
lemma getLast?_of_dashed_suffix (h : dashed o.address <:+ n) :
    n.getLast? = some '-' ↔ o.address.text.getLast? = some ':' := by
  rw [Net.Address.getLast?_of_suffix (dashed_ne_nil _) h, getLast?_dashed]

/-- The base and the name with the random end may end with the address, the other one does. -/
lemma isLabel_iff_of_mem (h : IsRandomEnd suffix) (hn : n ∈ candidateNames o suffix) :
    IsStem n ∧
      (IsLabel n ↔ ¬ (dashed o.address <:+ n ∧ o.address.text.getLast? = some ':')) := by
  -- a name that is made of the right characters fails only by its end
  have hfail (hstem : IsStem n) (hend : n.getLast? = some '-' → dashed o.address <:+ n) :
      IsLabel n ↔ ¬ (dashed o.address <:+ n ∧ o.address.text.getLast? = some ':') := by
    constructor
    · rintro hlabel ⟨hsuffix, hcolon⟩
      exact hlabel.finish ((getLast?_of_dashed_suffix hsuffix).mpr hcolon)
    · intro hnot
      refine ⟨hstem, fun hlast => hnot ⟨hend hlast, ?_⟩⟩
      exact (getLast?_of_dashed_suffix (hend hlast)).mp hlast
  rw [candidateNames_eq, List.mem_cons, List.mem_append, List.mem_singleton] at hn
  rcases hn with rfl | hn | rfl
  · have hstem := isStem_baseName o
    refine ⟨hstem, hfail hstem fun hlast => ?_⟩
    rcases baseName_cases o with hlabel | hbase
    · exact absurd hlast hlabel.finish
    · rw [hbase]
      exact List.suffix_append _ _
  · split at hn
    · cases hn
    · obtain rfl := List.mem_singleton.mp hn
      have hstem := isStem_withAddress o
      exact ⟨hstem, hfail hstem fun _ =>
        ⟨cutFor (baseName o) (dashed o.address) ++ ['-'], by simp [withSuffix_eq]⟩⟩
  · have hlabel := isLabel_withRandomEnd o h
    exact ⟨hlabel.toIsStem, hfail hlabel.toIsStem fun hlast => absurd hlast hlabel.finish⟩

/-- The base ends with the address, or the next name does. -/
lemma exists_dashed_suffix (o : Observation) (suffix : List Char) :
    ∃ n ∈ candidateNames o suffix, dashed o.address <:+ n := by
  by_cases h : dashed o.address <:+ baseName o
  · exact ⟨baseName o, by simp [candidateNames_eq], h⟩
  · refine ⟨withSuffix (baseName o) (dashed o.address), by simp [candidateNames_eq, h],
      cutFor (baseName o) (dashed o.address) ++ ['-'], by simp [withSuffix_eq]⟩

/-- **The names that are tried are labels, unless the printed address ends with a colon.** All of
them have the length, the characters and the start of labels, and all but the base end with a hyphen
and the whole of the address or of the random end. No label are exactly those that end with an
address which is printed with a colon at its end. There is always one that ends with the address. -/
theorem candidateNames_labels (o : Observation) {suffix : List Char} (h : IsRandomEnd suffix) :
    (∃ front last, candidateNames o suffix = baseName o ::
      ((if dashed o.address <:+ baseName o then [] else [front ++ '-' :: dashed o.address]) ++
        [last ++ '-' :: suffix])) ∧
      (∀ n ∈ candidateNames o suffix, IsStem n) ∧
      (∀ n ∈ candidateNames o suffix,
        IsLabel n ↔ ¬ (dashed o.address <:+ n ∧ o.address.text.getLast? = some ':')) ∧
      ((∀ n ∈ candidateNames o suffix, IsLabel n) ↔ o.address.text.getLast? ≠ some ':') := by
  refine ⟨⟨cutFor (baseName o) (dashed o.address), cutFor (baseName o) suffix, ?_⟩,
    fun n hn => (isLabel_iff_of_mem h hn).1, fun n hn => (isLabel_iff_of_mem h hn).2, ?_, ?_⟩
  · rw [candidateNames_eq, withSuffix_eq, withSuffix_eq]
  · intro hall hcolon
    obtain ⟨n, hn, hsuffix⟩ := exists_dashed_suffix o suffix
    exact (isLabel_iff_of_mem h hn).2.mp (hall n hn) ⟨hsuffix, hcolon⟩
  · intro hcolon n hn
    exact (isLabel_iff_of_mem h hn).2.mpr fun hends => hcolon hends.2

/-- A node with a display name at an address that is printed with digits at its end. -/
theorem candidateNames_labels_in_kitchen :
    let o : Observation := .bare "n1" "Kitchen Pi #2" (.v6 ⟨#[0xfe80, 0, 0, 0, 0, 0, 0, 1], rfl⟩) 80
      default
    IsRandomEnd "x7k2".toList ∧ ∀ n ∈ candidateNames o "x7k2".toList, IsLabel n := by
  intro o
  have hrandom : IsRandomEnd "x7k2".toList := ⟨rfl, List.all_eq_true.mp (by decide)⟩
  have hprinted : o.address.text.getLast? ≠ some ':' := by decide
  exact ⟨hrandom, (candidateNames_labels o hrandom).2.2.2.mpr hprinted⟩

/-- **A name that is tried need not be a label**: without a display name it may end with the hyphens
of the address. -/
theorem candidateNames_no_label :
    let o : Observation := .bare "n1" "" (.v6 ⟨#[0xfe80, 0, 0, 0, 0, 0, 0, 0], rfl⟩) 80 default
    IsRandomEnd "x7k2".toList ∧ (candidateNames o "x7k2".toList).head? = some "node-fe80--".toList ∧
      ¬ IsLabel "node-fe80--".toList := by
  intro o
  exact ⟨⟨rfl, List.all_eq_true.mp (by decide)⟩, by decide, fun h => h.finish (by decide)⟩

end NodeWatch.Reconcile
