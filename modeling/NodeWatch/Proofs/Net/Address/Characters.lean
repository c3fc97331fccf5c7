import NodeWatch.Proofs.Net.Address
import NodeWatch.Proofs.Text.Split

/-!
The characters of printed addresses: hexadecimal digits, dots and colons, at most thirty-nine of
them. The last one is a digit, unless the groups that are left out end the address; then it is a
colon.
-/

namespace NodeWatch.Net.Address

open Text

/-- A digit as addresses are printed with. -/
def IsPrinted (c : Char) : Prop := ∃ d < 16, c = d.digitChar

variable {sep c : Char} {ws : List (List Char)} {gs : List UInt16} {width : Nat}

lemma length_join_le (hw : ∀ w ∈ ws, w.length ≤ width) :
    (join [sep] ws).length ≤ (width + 1) * ws.length - 1 := by
  induction ws with
  | nil => simp [join]
  | cons w ws ih =>
    have hfirst := hw w List.mem_cons_self
    cases ws with
    | nil => simpa [join] using hfirst
    | cons v ws =>
      have hrest := ih fun u hu => hw u (List.mem_cons_of_mem _ hu)
      simp only [join, List.length_append, List.length_cons, List.length_nil, Nat.mul_add]
        at hrest ⊢
      omega

/-- What is joined ends with the last part. -/
lemma suffix_join (ws : List (List Char)) (w : List Char) : w <:+ join [sep] (ws ++ [w]) := by
  induction ws with
  | nil => exact List.suffix_rfl
  | cons v ws ih =>
    have hjoin : join [sep] (v :: ws ++ [w]) = v ++ [sep] ++ join [sep] (ws ++ [w]) := by
      cases ws <;> rfl
    rw [hjoin]
    exact ih.trans (List.suffix_append _ _)

lemma getLast?_of_suffix {w t : List Char} (hw : w ≠ []) (h : w <:+ t) :
    t.getLast? = w.getLast? := by
  obtain ⟨s, rfl⟩ := h
  exact List.getLast?_append_of_ne_nil s hw

/-! ### Octets -/

lemma isPrinted_of_mem_decimal {n : Nat} (h : c ∈ decimal n) : IsPrinted c := by
  obtain ⟨d, hd, rfl⟩ := eq_digitChar_of_mem_digits (by omega) h
  exact ⟨d, by omega, rfl⟩

lemma mem_v4Text {a b d e : UInt8} (h : c ∈ v4Text a b d e) : IsPrinted c ∨ c = '.' := by
  rcases mem_join h with h | ⟨w, hw, h⟩
  · exact .inr (List.mem_singleton.mp h)
  · obtain ⟨o, -, rfl⟩ := List.mem_map.mp hw
    exact .inl (isPrinted_of_mem_decimal h)

lemma length_v4Text_le (a b d e : UInt8) : (v4Text a b d e).length ≤ 15 := by
  have hw : ∀ w ∈ [a, b, d, e].map fun o => decimal o.toNat, w.length ≤ 3 := by
    intro w hw
    obtain ⟨o, -, rfl⟩ := List.mem_map.mp hw
    have ho := o.toNat_lt
    exact length_digits_le (by omega) (by omega) (by omega)
  exact (length_join_le hw).trans (by simp)

lemma suffix_v4Text (a b d e : UInt8) : decimal e.toNat <:+ v4Text a b d e :=
  suffix_join [decimal a.toNat, decimal b.toNat, decimal d.toNat] _

lemma getLast?_v4Text {a b d e : UInt8} {s : List Char} (h : c ∈ (s ++ v4Text a b d e).getLast?) :
    IsPrinted c := by
  have hend : decimal e.toNat <:+ s ++ v4Text a b d e :=
    (suffix_v4Text a b d e).trans (List.suffix_append _ _)
  rw [getLast?_of_suffix digits_ne_nil hend] at h
  exact isPrinted_of_mem_decimal (List.mem_of_mem_getLast? h)

/-! ### Groups -/

lemma isPrinted_of_mem_digits {n : Nat} (h : c ∈ digits 16 n) : IsPrinted c := by
  obtain ⟨d, hd, rfl⟩ := eq_digitChar_of_mem_digits (by omega) h
  exact ⟨d, hd, rfl⟩

lemma mem_groupsText (h : c ∈ groupsText gs) : IsPrinted c ∨ c = ':' := by
  rcases mem_join h with h | ⟨w, hw, h⟩
  · exact .inr (List.mem_singleton.mp h)
  · obtain ⟨g, -, rfl⟩ := List.mem_map.mp hw
    exact .inl (isPrinted_of_mem_digits h)

lemma length_groupsText_le (gs : List UInt16) : (groupsText gs).length ≤ 5 * gs.length - 1 := by
  have hw : ∀ w ∈ gs.map fun g => digits 16 g.toNat, w.length ≤ 4 := by
    intro w hw
    obtain ⟨g, -, rfl⟩ := List.mem_map.mp hw
    have hg := g.toNat_lt
    exact length_digits_le (by omega) (by omega) (by omega)
  exact (length_join_le hw).trans (by simp)

lemma isPrinted_getLast?_groupsText (h : c ∈ (groupsText gs).getLast?) : IsPrinted c := by
  cases gs using List.reverseRecOn with
  | nil => simp [groupsText, join] at h
  | append_singleton gs g =>
    rw [groupsText, List.map_append, List.map_singleton,
      getLast?_of_suffix digits_ne_nil (suffix_join _ _)] at h
    exact isPrinted_of_mem_digits (List.mem_of_mem_getLast? h)

/-! ### Whole addresses -/

lemma mem_v6Text (h : c ∈ v6Text gs) : IsPrinted c ∨ c = '.' ∨ c = ':' := by
  rcases v6Text_cases gs with ⟨g, k, -, htext⟩ | htext <;> rw [htext] at h
  · rcases List.mem_append.mp h with h | h
    · have hall : "::ffff:".toList.all (fun c => c = 'f' || c = ':') = true := by decide
      have hc : c = 'f' ∨ c = ':' := by simpa using List.all_eq_true.mp hall c h
      rcases hc with rfl | rfl
      · exact .inl ⟨15, by omega, rfl⟩
      · exact .inr (.inr rfl)
    · exact (mem_v4Text h).imp_right .inl
  · split at h
    · rw [List.mem_append, List.mem_append] at h
      rcases h with (h | h) | h
      · exact (mem_groupsText h).imp_right .inr
      · exact .inr (.inr (by simpa using h))
      · exact (mem_groupsText h).imp_right .inr
    · exact (mem_groupsText h).imp_right .inr

lemma length_v6Text_le (hlen : gs.length = 8) : (v6Text gs).length ≤ 39 := by
  rcases v6Text_cases gs with ⟨g, k, -, htext⟩ | htext <;> rw [htext]
  · have h := length_v4Text_le (.ofNat (g.toNat / 256)) (.ofNat g.toNat) (.ofNat (k.toNat / 256))
      (.ofNat k.toNat)
    have hstart : "::ffff:".toList.length = 7 := rfl
    rw [List.length_append]
    omega
  · split
    · have hall := congrArg List.length (longestZeros_spec gs)
      have hfront := length_groupsText_le (gs.take (longestZeros gs).1)
      have hback := length_groupsText_le (gs.drop ((longestZeros gs).1 + (longestZeros gs).2))
      simp only [List.length_append, List.length_replicate, List.length_cons, List.length_nil]
        at hall ⊢
      omega
    · have h := length_groupsText_le gs
      omega

lemma getLast?_v6Text (h : c ∈ (v6Text gs).getLast?) : IsPrinted c ∨ c = ':' := by
  rcases v6Text_cases gs with ⟨g, k, -, htext⟩ | htext <;> rw [htext] at h
  · exact .inl (getLast?_v4Text h)
  · split at h
    · rw [List.getLast?_append, Option.mem_def, Option.or_eq_some_iff] at h
      rcases h with h | ⟨-, h⟩
      · exact .inl (isPrinted_getLast?_groupsText h)
      · exact .inr (by simpa [eq_comm] using h)
    · exact .inl (isPrinted_getLast?_groupsText h)

lemma mem_text {a : Address} (h : c ∈ a.text) : IsPrinted c ∨ c = '.' ∨ c = ':' := by
  cases a with
  | v4 a b d e => exact (mem_v4Text h).imp_right .inl
  | v6 gs => exact mem_v6Text h

lemma length_text_le (a : Address) : a.text.length ≤ 39 := by
  cases a with
  | v4 a b d e => exact Nat.le_trans (length_v4Text_le a b d e) (by omega)
  | v6 gs => exact length_v6Text_le gs.length_toList

lemma text_ne_nil (a : Address) : a.text ≠ [] := by
  intro h
  have hread := ofString?_toString a
  rw [toString, h] at hread
  cases hread

lemma getLast?_text {a : Address} (h : c ∈ a.text.getLast?) : IsPrinted c ∨ c = ':' := by
  cases a with
  | v4 a b d e => exact .inl (getLast?_v4Text (s := []) h)
  | v6 gs => exact getLast?_v6Text h

end NodeWatch.Net.Address
