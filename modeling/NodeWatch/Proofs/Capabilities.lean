import NodeWatch.Proofs.Distinct
import NodeWatch.Proofs.Observation
import NodeWatch.Proofs.Text.Split

/-!
Lists of capabilities, and the texts that write them.

A text is read as the distinct words between its commas. Joining these words gives another text for
the same list. However attributes are given to a node, its capabilities are those that its attribute
of this name writes.
-/

namespace NodeWatch.Capabilities

open Text

variable {s c : String} {caps : List String}

/-- The trimmed parts between the commas of a text, without the blank ones. -/
def wordsIn (s : String) : List String :=
  (((s.toList.splitOn ',').map trim).filter (· ≠ [])).map String.ofList

/-- What can stand between two commas and is read as it is. -/
structure IsWord (c : String) : Prop where
  filled : isBlankText c = false
  trimmed : trimmed c = c
  noComma : ',' ∉ c.toList

lemma ofString_eq (s : String) : ofString s = distinct (wordsIn s) := by
  have hinjective : String.ofList.Injective := fun _ _ h => String.ofList_inj.mp h
  rw [wordsIn, distinct_map hinjective, ← split_eq_splitOn]
  rfl

lemma isWord_of_mem_wordsIn (h : c ∈ wordsIn s) : IsWord c := by
  obtain ⟨w, hw, rfl⟩ := List.mem_map.mp h
  obtain ⟨hw, hfilled⟩ := List.mem_filter.mp hw
  obtain ⟨u, hu, rfl⟩ := List.mem_map.mp hw
  rw [← split_eq_splitOn] at hu
  refine ⟨?_, ?_, ?_⟩
  · obtain ⟨ch, r, hr⟩ := List.exists_cons_of_ne_nil (of_decide_eq_true hfilled)
    have hstart : isBlank ch = false := isBlank_head?_trim ch (by rw [hr]; rfl)
    simp [isBlankText, hr, hstart]
  · rw [trimmed, String.toList_ofList, trim_trim]
  · rw [String.toList_ofList]
    exact fun hcomma => notMem_of_mem_split hu ((trim_sublist u).subset hcomma)

lemma isWord_of_mem_ofString (h : c ∈ ofString s) : IsWord c := by
  rw [ofString_eq, mem_distinct] at h
  exact isWord_of_mem_wordsIn h

/-! ### Lists that are joined -/

/-- The trimmed parts between the commas of texts, without blank ones and repetitions. -/
def partsOf (caps : List String) : List String :=
  (distinct (((caps.flatMap fun s => split ',' s.toList).map trim).filter (· ≠ []))).map
    String.ofList

/-- Joining texts tells no more than their parts. -/
lemma ofString_joinWith (caps : List String) : ofString (joinWith "," caps) = partsOf caps := by
  cases caps with
  | nil => rfl
  | cons s caps =>
    have hsplit : split ',' (joinWith "," (s :: caps)).toList =
        (s :: caps).flatMap fun s => split ',' s.toList := by
      rw [toList_joinWith]
      exact (split_join ',' (by simp)).trans (List.flatMap_map _ _ _)
    unfold ofString ofText partsOf
    rw [hsplit]

/-- Distinct trimmed words are their parts, if and only if none of them holds a comma. -/
lemma partsOf_eq_self_iff (hwords : ∀ s ∈ caps, isBlankText s = false ∧ trimmed s = s)
    (hnodup : caps.Nodup) : partsOf caps = caps ↔ ∀ s ∈ caps, ',' ∉ s.toList := by
  refine ⟨fun h s hs => ?_, fun hcomma => ?_⟩
  · rw [← h, ← ofString_joinWith] at hs
    exact (isWord_of_mem_ofString hs).noComma
  have hsplit : caps.flatMap (fun s => split ',' s.toList) = caps.map String.toList := by
    calc caps.flatMap (fun s => split ',' s.toList) = caps.flatMap fun s => [s.toList] :=
          List.flatMap_congr fun s hs => split_of_notMem (hcomma s hs)
      _ = caps.map String.toList := List.flatMap_pure_eq_map _ _
  have htrim : (caps.map String.toList).map trim = caps.map String.toList := by
    rw [List.map_map]
    refine List.map_congr_left fun s hs => ?_
    calc trim s.toList = (trimmed s).toList := by rw [trimmed, String.toList_ofList]
      _ = s.toList := by rw [(hwords s hs).2]
  have hfilter : (caps.map String.toList).filter (· ≠ []) = caps.map String.toList := by
    refine List.filter_eq_self.mpr fun w hw => ?_
    obtain ⟨s, hs, rfl⟩ := List.mem_map.mp hw
    have hblank := (hwords s hs).1
    cases hw : s.toList with
    | nil => simp [isBlankText, hw] at hblank
    | cons _ _ => simp
  have hdistinct := distinct_of_nodup
    (hnodup.map fun _ _ he => String.toList_injective he)
  unfold partsOf
  rw [hsplit, htrim, hfilter, hdistinct, List.map_map]
  simp [Function.comp_def]

/-- What was read from a text is read again when it is joined. -/
lemma ofString_joinWith_ofString (s : String) :
    ofString (joinWith "," (ofString s)) = ofString s := by
  have hwords : ∀ c ∈ ofString s, IsWord c := fun c hc => isWord_of_mem_ofString hc
  have hnodup : (ofString s).Nodup := ofString_eq s ▸ nodup_distinct _
  rw [ofString_joinWith]
  exact (partsOf_eq_self_iff (fun c hc => ⟨(hwords c hc).filled, (hwords c hc).trimmed⟩)
    hnodup).mpr fun c hc => (hwords c hc).noComma

/-! ### Canonical lists -/

/-- **Lists of capabilities are canonical.** What is read from a text has no repetitions, consists
of words that can be joined, and has exactly the words of the text, in the order in which they come
first; joined and read again it is the same list. A new node, given any attributes one after the
other, has the list that its attribute writes, and none without it. -/
theorem capabilities_canonical :
    (∀ s : String, (ofString s).Nodup ∧ (∀ c ∈ ofString s, IsWord c) ∧
      (∀ c, c ∈ ofString s ↔ c ∈ wordsIn s) ∧
      ((ofString s).Pairwise fun c d => (wordsIn s).idxOf c < (wordsIn s).idxOf d) ∧
      ofString (joinWith "," (ofString s)) = ofString s) ∧
    ∀ (id name : String) (address : Net.Address) (port : UInt16) (now : Time.Instant)
      (ps : List (String × String)),
      let o := (Observation.bare id name address port now).withAttributes ps
      o.capabilities =
        ((o.metadata.get? Observation.Key.capabilities.text).map ofString).getD [] := by
  refine ⟨fun s => ⟨?_, fun c => isWord_of_mem_ofString, fun c => ?_, ?_,
    ofString_joinWith_ofString s⟩, fun id name address port now ps => ?_⟩
  · rw [ofString_eq]
    exact nodup_distinct _
  · rw [ofString_eq, mem_distinct]
  · rw [ofString_eq]
    exact pairwise_distinct _
  · have hnew : (Observation.bare id name address port now).Capable := rfl
    exact hnew.withAttributes ps

/-- A list with blanks, an empty part and a repetition, which replaces another one. -/
theorem capabilities_canonical_in_kitchen :
    let s := " gpio,camera,, gpio "
    "camera" ∈ ofString s ∧ IsWord "camera" ∧
      ((Observation.bare "n1" "Kitchen" (.v4 10 0 0 1) 80 default).withAttributes
        [("capabilities", "lora"), ("model", "Pi"), ("capabilities", s)]).capabilities =
          ["gpio", "camera"] := by
  intro s
  have hmem : "camera" ∈ ofString s := by decide
  obtain ⟨hread, hnode⟩ := capabilities_canonical
  refine ⟨hmem, (hread s).2.1 _ hmem, ?_⟩
  rw [hnode]
  decide

end NodeWatch.Capabilities
