import NodeWatch.Proofs.Distinct
import NodeWatch.Proofs.Net.Address.Characters
import NodeWatch.ServiceRecord

/-!
What a service record keeps of what it is made of.
-/

namespace NodeWatch

open Text

/-! ### Lists of addresses -/

namespace Net.Address

/-- The characters of printed addresses. -/
def IsTextChar (c : Char) : Prop := c = '.' ∨ c = ':' ∨ ∃ d < 16, c = d.digitChar

lemma isTextChar_of_mem_text {a : Net.Address} {x : Char} (h : x ∈ a.text) : IsTextChar x := by
  rcases mem_text h with hprinted | rfl | rfl
  · exact .inr (.inr hprinted)
  · exact .inl rfl
  · exact .inr (.inl rfl)

lemma IsTextChar.bare {c : Char} (h : IsTextChar c) : c ≠ ',' ∧ isBlank c = false := by
  have hdigits : ∀ d : Fin 16, d.val.digitChar ≠ ',' ∧ isBlank d.val.digitChar = false := by
    decide
  rcases h with rfl | rfl | ⟨d, hd, rfl⟩
  · decide
  · decide
  · exact hdigits ⟨d, hd⟩

end Net.Address

namespace ServiceRecord

variable {p s t : List Char} {as : List Net.Address} {ps : List (String × String)}

lemma mapM_ofText? (as : List Net.Address) :
    (as.map (·.text)).mapM (fun t => Net.Address.ofText? (trim t)) = some as := by
  induction as with
  | nil => rfl
  | cons a as ih =>
    have htrim : trim a.text = a.text :=
      trim_eq_self fun c hc => (Net.Address.isTextChar_of_mem_text hc).bare.2
    have hread : Net.Address.ofText? a.text = some a := by
      have hstring := Net.Address.ofString?_toString a
      rwa [Net.Address.ofString?, Net.Address.toString, String.toList_ofList] at hstring
    rw [List.map_cons, List.mapM_cons, ih, htrim, hread]
    rfl

/-- **Addresses with commas between them are read as they are.** -/
theorem addressesOf_joinWith (as : List Net.Address) :
    addressesOf (joinWith "," (as.map Net.Address.toString)) = .ok (distinct as) := by
  cases as with
  | nil => rfl
  | cons a as =>
    have hcomma : ∀ w ∈ (a :: as).map (·.text), ',' ∉ w := by
      intro w hw hmem
      obtain ⟨b, -, rfl⟩ := List.mem_map.mp hw
      exact (Net.Address.isTextChar_of_mem_text hmem).bare.1 rfl
    have hsplit : split ',' (joinWith "," ((a :: as).map Net.Address.toString)).toList =
        (a :: as).map (·.text) := by
      have htexts : ((a :: as).map Net.Address.toString).map String.toList =
          (a :: as).map (·.text) := by
        simp [Net.Address.toString]
      rw [toList_joinWith, htexts]
      exact split_join_of_notMem (by simp) hcomma
    have hread := mapM_ofText? (a :: as)
    rw [← hsplit] at hread
    unfold addressesOf
    rw [if_neg fun hempty => ?_, hread]
    have hnone : (split ',' "".toList).mapM (fun t => Net.Address.ofText? (trim t)) = none := by
      decide
    rw [hempty, hnone] at hread
    exact absurd hread (by simp)

/-! ### Subtypes -/

lemma infix_of_afterLast? (h : afterLast? p s = some t) : p <:+: s := by
  induction s generalizing t with
  | nil => simp [afterLast?] at h
  | cons c r ih =>
    rw [afterLast?] at h
    split at h
    next u hu => exact (ih hu).trans (List.suffix_cons c r).isInfix
    next =>
      unfold afterStart at h
      split at h
      next hprefix => exact (List.isPrefixOf_iff_prefix.mp hprefix).isInfix
      next => simp at h

/-- A subtype comes with a label of its own, and never at the front. -/
lemma mem_tail_split (h : "._sub.".toList <:+: s) : "_sub".toList ∈ (split '.' s).tail := by
  obtain ⟨u, v, rfl⟩ := h
  have hs : u ++ "._sub.".toList ++ v = u ++ '.' :: ("_sub".toList ++ '.' :: v) := by simp
  rw [hs, split_append, split_append, split_of_notMem (s := "_sub".toList) (by decide)]
  obtain ⟨w, ws, hw⟩ := List.exists_cons_of_ne_nil (split_ne_nil '.' u)
  simp [hw]

lemma afterLast?_eq_none (h : "_sub".toList ∉ (split '.' s).tail) :
    afterLast? "._sub.".toList s = none := by
  cases hafter : afterLast? "._sub.".toList s with
  | none => rfl
  | some t => exact absurd (mem_tail_split (infix_of_afterLast? hafter)) h

lemma mainType_of_afterLast? {type : String} (h : afterLast? "._sub.".toList type.toList = none) :
    mainType type = type := by
  rw [mainType, h]
  rfl

/-! ### Keys -/

/-- Keys that a record can carry. -/
def IsKey (k : String) : Prop := (∀ c ∈ k.toList, c.toNat < 128) ∧ '=' ∉ k.toList

-- Only the characters of the key are tried.
instance (k : String) : Decidable (IsKey k) :=
  haveI : Decidable (∀ c ∈ k.toList, c.toNat < 128) := List.decidableBAll _ _
  inferInstanceAs (Decidable ((∀ c ∈ k.toList, c.toNat < 128) ∧ '=' ∉ k.toList))

lemma keyFault?_eq_none (h : ∀ p ∈ ps, IsKey p.1) : keyFault? ps = none := by
  refine List.findSome?_eq_none_iff.mpr fun p hp => ?_
  obtain ⟨hascii, heq⟩ := h p hp
  have hall : p.1.toList.all (·.toNat < 128) = true := by simpa using hascii
  simp [hall, heq]

end ServiceRecord

end NodeWatch
