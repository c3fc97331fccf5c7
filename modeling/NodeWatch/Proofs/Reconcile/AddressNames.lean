import NodeWatch.Proofs.NodeName
import NodeWatch.Reconcile

/-!
Names that are made of addresses.

Hyphens stand for the dots as well as for the colons of an address, and nothing tells decimal from
hexadecimal digits. So the octets behind `::ffff:` look like four groups that are spelled with the
same digits. No other two addresses look alike.
-/

namespace NodeWatch

open Text

namespace Net.Address

variable {w x y z o : UInt8} {a b : Net.Address}

/-! ### Octets spelled as groups -/

/-- The group whose hexadecimal digits are the decimal digits of the octet. -/
def spelled (o : UInt8) : UInt16 := UInt16.ofNat (valueFrom 16 0 (decimal o.toNat))

lemma digits_spelled (o : UInt8) : digits 16 (spelled o).toNat = decimal o.toNat := by
  have hdigits : digits 16 (valueFrom 16 0 (decimal o.toNat)) = decimal o.toNat :=
    digits_valueFrom_digits (by omega) (by omega) (by omega) _
  have hlength : (decimal o.toNat).length ≤ 3 := by
    have ho := o.toNat_lt
    exact length_digits_le (by omega) (by omega) (by omega)
  have hbound : valueFrom 16 0 (decimal o.toNat) < 16 ^ 3 := by
    rw [← hdigits] at hlength
    exact (Nat.length_toDigits_le_iff (by omega) (by omega)).mp hlength
  rw [spelled, UInt16.toNat_ofNat', Nat.mod_eq_of_lt (by omega), hdigits]

lemma digits_injective {m n : Nat} (h : digits 16 m = digits 16 n) : m = n := by
  have hvalue := congrArg (valueFrom 16 0) h
  rwa [valueFrom_digits (by omega) (by omega), valueFrom_digits (by omega) (by omega)] at hvalue

lemma spelled_eq_zero : spelled o = 0 ↔ o = 0 := by
  constructor
  · intro h
    have hdigits := digits_spelled o
    rw [h, decimal] at hdigits
    have hzero : decimal (0 : UInt8).toNat = decimal o.toNat := hdigits
    have hvalue := congrArg (valueFrom 10 0) hzero
    rw [decimal, decimal, valueFrom_digits (by omega) (by omega),
      valueFrom_digits (by omega) (by omega)] at hvalue
    exact (UInt8.toNat_inj.mp hvalue).symm
  · rintro rfl
    rfl

/-- The address of the second family that stands for one of the first. -/
def mapped (w x y z : UInt8) : Net.Address :=
  .v6 #v[0, 0, 0, 0, 0, 0xffff, group w x, group y z]

/-- The address whose last four groups are spelled like the octets, behind `::ffff:` as well. -/
def respelled (w x y z : UInt8) : Net.Address :=
  .v6 #v[0, 0, 0, 0xffff, spelled w, spelled x, spelled y, spelled z]

/-- Octets behind `::ffff:`, and groups that are spelled like them. If all were zero, the zeros left
out would be others. -/
def LooksLike (a b : Net.Address) : Prop :=
  ∃ w x y z : UInt8, ¬ (w = 0 ∧ x = 0 ∧ y = 0 ∧ z = 0) ∧ a = mapped w x y z ∧
    b = respelled w x y z

/-! ### How addresses are printed -/

lemma text_injective (h : a.text = b.text) : a = b :=
  toString_injective (congrArg String.ofList h)

lemma octets_group (w x : UInt8) : UInt8.ofNat ((group w x).toNat / 256) = w ∧
    UInt8.ofNat (group w x).toNat = x := by
  have hw := w.toNat_lt
  have hx := x.toNat_lt
  simp only [group, UInt16.toNat_ofNat', ← UInt8.toNat_inj, UInt8.toNat_ofNat']
  omega

lemma text_mapped (w x y z : UInt8) :
    (mapped w x y z).text = "::ffff:".toList ++ v4Text w x y z := by
  have htext : (mapped w x y z).text = "::ffff:".toList ++
      v4Text (.ofNat ((group w x).toNat / 256)) (.ofNat (group w x).toNat)
        (.ofNat ((group y z).toNat / 256)) (.ofNat (group y z).toNat) := rfl
  rw [htext, (octets_group w x).1, (octets_group w x).2, (octets_group y z).1,
    (octets_group y z).2]

/-- An address of the second family that is printed with colons only. -/
inductive Coloned (gs : Vector UInt16 8) : Prop where
  | whole (text : v6Text gs.toList = groupsText gs.toList)
  | compressed (front back : List UInt16) (n : Nat)
    (zeros : longestZeros gs.toList = (front.length, n))
    (groups : gs.toList = front ++ List.replicate n 0 ++ back)
    (text : v6Text gs.toList = groupsText front ++ ':' :: ':' :: groupsText back)

/-- Addresses are printed with octets behind `::ffff:` or with colons only. -/
lemma mapped_or_coloned (gs : Vector UInt16 8) :
    (∃ w x y z, Net.Address.v6 gs = mapped w x y z) ∨ Coloned gs := by
  have hlen : gs.toList.length = 8 := gs.length_toList
  rcases v6Text_cases gs.toList with ⟨g, h, hgs, -⟩ | htext
  · refine .inl ⟨.ofNat (g.toNat / 256), .ofNat g.toNat, .ofNat (h.toNat / 256), .ofNat h.toNat, ?_⟩
    rw [mapped, group_octets, group_octets]
    exact congrArg Net.Address.v6 (Vector.toList_inj.mp hgs)
  · right
    split at htext
    next =>
      have hspec := longestZeros_spec gs.toList
      have hlengths := congrArg List.length hspec
      simp only [List.length_append, List.length_take, List.length_replicate, List.length_drop]
        at hlengths
      refine .compressed _ _ _ ?_ hspec (by simpa using htext)
      rw [List.length_take, Nat.min_eq_left (by omega)]
    next => exact .whole htext

lemma longestZeros_of_le {g : UInt16} {r : List UInt16}
    (h : (longestZeros r).2 ≤ ((g :: r).takeWhile (· == 0)).length) :
    longestZeros (g :: r) = (0, ((g :: r).takeWhile (· == 0)).length) := by
  rw [longestZeros]
  exact if_pos h

lemma longestZeros_cons_le {g : UInt16} {r : List UInt16} {n : Nat} (hr : (longestZeros r).2 ≤ n)
    (h : ((g :: r).takeWhile (· == 0)).length ≤ n) : (longestZeros (g :: r)).2 ≤ n := by
  rw [longestZeros]
  dsimp only
  split
  · exact h
  · exact hr

/-- No more zeros in a row than there are. -/
lemma longestZeros_le_count (gs : List UInt16) : (longestZeros gs).2 ≤ gs.count 0 := by
  have hspec := congrArg (List.count 0) (longestZeros_spec gs)
  simp only [List.count_append, List.count_replicate_self] at hspec
  omega

/-- The zeros in front are left out, unless there are more behind. -/
lemma longestZeros_respelled (h : ¬ (w = 0 ∧ x = 0 ∧ y = 0 ∧ z = 0)) :
    longestZeros [0, 0, 0, 0xffff, spelled w, spelled x, spelled y, spelled z] = (0, 3) := by
  generalize hback : [spelled w, spelled x, spelled y, spelled z] = back
  have hcount : back.count 0 < 4 := by
    have hlength : back.length = 4 := by rw [← hback]; rfl
    refine hlength ▸ lt_of_le_of_ne List.count_le_length fun hall => h ?_
    rw [List.count_eq_length, ← hback] at hall
    simpa [eq_comm (a := (0 : UInt16)), spelled_eq_zero] using hall
  have hzeros : (longestZeros back).2 ≤ 3 := by
    have hle := longestZeros_le_count back
    omega
  have hthird := longestZeros_cons_le (g := 0xffff) hzeros (by simp)
  have hsecond := longestZeros_cons_le (g := 0) hthird (by simp)
  have hfirst := longestZeros_cons_le (g := 0) hsecond (by simp)
  have hall := longestZeros_of_le (g := 0) (r := 0 :: 0 :: 0xffff :: back) (by simpa using hfirst)
  simpa using hall

lemma text_respelled (h : ¬ (w = 0 ∧ x = 0 ∧ y = 0 ∧ z = 0)) :
    (respelled w x y z).text =
      ':' :: ':' :: groupsText [0xffff, spelled w, spelled x, spelled y, spelled z] := by
  have hgroups : (respelled w x y z).text =
      v6Text [0, 0, 0, 0xffff, spelled w, spelled x, spelled y, spelled z] := rfl
  rcases v6Text_cases [0, 0, 0, 0xffff, spelled w, spelled x, spelled y, spelled z] with
    ⟨g, k, hlist, -⟩ | htext
  · simp at hlist
  · rw [hgroups, htext, longestZeros_respelled h]
    rfl

end Net.Address

namespace NodeName

open Net.Address

variable {sep : Char} {s t : List Char} {ws : List (List Char)} {w x y z : UInt8}
  {gs front back : List UInt16} {a b : Net.Address}

/-! ### Hyphens for dots and colons -/

/-- The text with hyphens for its dots and colons. -/
def hyphens (s : List Char) : List Char := s.map fun c => if c = '.' ∨ c = ':' then '-' else c

lemma dashed_eq (a : Net.Address) : dashed a = hyphens a.text := rfl

lemma hyphens_append (s t : List Char) : hyphens (s ++ t) = hyphens s ++ hyphens t :=
  List.map_append

lemma hyphens_cons_sep (hsep : sep = '.' ∨ sep = ':') (s : List Char) :
    hyphens (sep :: s) = '-' :: hyphens s := by
  rw [hyphens, List.map_cons, if_pos hsep]
  rfl

lemma hyphens_of_isPrinted (h : ∀ c ∈ s, IsPrinted c) : hyphens s = s := by
  refine List.map_congr_left (fun c hc => ?_) |>.trans (List.map_id s)
  obtain ⟨-, hdot, hcolon⟩ := ne_of_isLabelChar (isLabelChar_of_isPrinted (h c hc))
  exact if_neg (by simp [hdot, hcolon])

/-- What was written with one separator can be told from its hyphens. -/
lemma hyphens_injective (hsep : sep = '.' ∨ sep = ':') (hs : ∀ c ∈ s, IsPrinted c ∨ c = sep)
    (ht : ∀ c ∈ t, IsPrinted c ∨ c = sep) (h : hyphens s = hyphens t) : s = t := by
  have hback : ∀ u : List Char, (∀ c ∈ u, IsPrinted c ∨ c = sep) →
      (hyphens u).map (fun c => if c = '-' then sep else c) = u := by
    intro u hu
    rw [hyphens, List.map_map]
    refine List.map_congr_left (fun c hc => ?_) |>.trans (List.map_id u)
    rcases hu c hc with hprinted | rfl
    · obtain ⟨hhyphen, hdot, hcolon⟩ := ne_of_isLabelChar (isLabelChar_of_isPrinted hprinted)
      simp [hhyphen, hdot, hcolon]
    · simp [hsep]
  rw [← hback s hs, h, hback t ht]

lemma hyphens_join (hsep : sep = '.' ∨ sep = ':') (hws : ∀ w ∈ ws, ∀ c ∈ w, IsPrinted c) :
    hyphens (join [sep] ws) = join ['-'] ws := by
  induction ws with
  | nil => rfl
  | cons w ws ih =>
    have hw := hyphens_of_isPrinted (hws w List.mem_cons_self)
    cases ws with
    | nil => exact hw
    | cons v ws =>
      rw [join, join, hyphens_append, hyphens_append, hw,
        ih fun u hu => hws u (List.mem_cons_of_mem _ hu), hyphens_cons_sep hsep]
      rfl

/-! ### The parts between hyphens -/

lemma split_hyphens_join (hsep : sep = '.' ∨ sep = ':') (hne : ws ≠ [])
    (hws : ∀ w ∈ ws, ∀ c ∈ w, IsPrinted c) : split '-' (hyphens (join [sep] ws)) = ws := by
  rw [hyphens_join hsep hws]
  exact split_join_of_notMem hne fun w hw hhyphen =>
    (ne_of_isLabelChar (isLabelChar_of_isPrinted (hws w hw _ hhyphen))).1 rfl

lemma split_v4Text (w x y z : UInt8) : split '-' (hyphens (v4Text w x y z)) =
    [w, x, y, z].map fun o => decimal o.toNat := by
  refine split_hyphens_join (.inl rfl) (by simp) fun u hu c hc => ?_
  obtain ⟨o, -, rfl⟩ := List.mem_map.mp hu
  exact isPrinted_of_mem_decimal hc

lemma split_groupsText (hne : gs ≠ []) : split '-' (hyphens (groupsText gs)) =
    gs.map fun g => digits 16 g.toNat := by
  refine split_hyphens_join (.inr rfl) (by simpa using hne) fun u hu c hc => ?_
  obtain ⟨g, -, rfl⟩ := List.mem_map.mp hu
  exact isPrinted_of_mem_digits hc

/-- The groups that are left out leave an empty part. -/
lemma split_compressed (front back : List UInt16) :
    split '-' (hyphens (groupsText front ++ ':' :: ':' :: groupsText back)) =
      split '-' (hyphens (groupsText front)) ++ [] :: split '-' (hyphens (groupsText back)) := by
  rw [hyphens_append, hyphens_cons_sep (.inr rfl), hyphens_cons_sep (.inr rfl), split_append]
  rfl

lemma split_mapped (w x y z : UInt8) : split '-' (dashed (mapped w x y z)) =
    [] :: [] :: "ffff".toList :: [w, x, y, z].map fun o => decimal o.toNat := by
  have htext : (mapped w x y z).text = "::ffff".toList ++ ':' :: v4Text w x y z :=
    text_mapped w x y z
  rw [dashed_eq, htext, hyphens_append, hyphens_cons_sep (.inr rfl), split_append, split_v4Text]
  rfl

/-- Whole groups are eight parts; whoever leaves some out has an empty part. -/
lemma split_coloned {gs : Vector UInt16 8} (h : Coloned gs) :
    [] ∈ split '-' (dashed (.v6 gs)) ∨
      split '-' (dashed (.v6 gs)) = gs.toList.map fun g => digits 16 g.toNat := by
  cases h with
  | whole text =>
    right
    rw [dashed_eq, Net.Address.text, text]
    exact split_groupsText fun hnil => by simpa [hnil] using gs.length_toList
  | compressed front back n _ _ text =>
    left
    rw [dashed_eq, Net.Address.text, text, split_compressed]
    simp

/-! ### Addresses that look alike -/

lemma mem_text_coloned {gs : Vector UInt16 8} (h : Coloned gs) :
    ∀ c ∈ (Net.Address.v6 gs).text, IsPrinted c ∨ c = ':' := by
  intro c hc
  rw [Net.Address.text] at hc
  cases h with
  | whole text => exact mem_groupsText (text ▸ hc)
  | compressed front back n _ _ text =>
    rw [text, List.mem_append, List.mem_cons, List.mem_cons] at hc
    rcases hc with hc | rfl | rfl | hc
    · exact mem_groupsText hc
    · exact .inr rfl
    · exact .inr rfl
    · exact mem_groupsText hc

/-- An address of the first family is not taken for one of the second. -/
lemma dashed_v4_ne {gs : Vector UInt16 8} : dashed (.v4 w x y z) ≠ dashed (.v6 gs) := by
  intro h
  have hparts : split '-' (dashed (.v6 gs)) = [w, x, y, z].map fun o => decimal o.toNat := by
    rw [← h]
    exact split_v4Text w x y z
  have hfilled : [] ∉ split '-' (dashed (.v6 gs)) := by
    rw [hparts, List.mem_map]
    rintro ⟨o, -, ho⟩
    exact digits_ne_nil ho
  rcases mapped_or_coloned gs with ⟨w', x', y', z', hgs⟩ | hcoloned
  · rw [hgs, split_mapped] at hfilled
    exact hfilled (by simp)
  · rcases split_coloned hcoloned with hempty | hgroups
    · exact hfilled hempty
    · have hlength := congrArg List.length (hparts.symm.trans hgroups)
      simp at hlength

lemma dashed_mapped_inj {w' x' y' z' : UInt8}
    (h : dashed (mapped w x y z) = dashed (mapped w' x' y' z')) :
    mapped w x y z = mapped w' x' y' z' := by
  rw [dashed_eq, dashed_eq, text_mapped, text_mapped, hyphens_append, hyphens_append,
    List.append_cancel_left_eq] at h
  have hoctets := hyphens_injective (.inl rfl) (fun c => mem_v4Text) (fun c => mem_v4Text) h
  refine text_injective ?_
  rw [text_mapped, text_mapped, hoctets]

/-- Groups whose parts are these words. -/
lemma eq_respelled_of_map {back : List UInt16} (h : back.map (fun g => digits 16 g.toNat) =
    "ffff".toList :: [w, x, y, z].map fun o => decimal o.toNat) :
    back = [0xffff, spelled w, spelled x, spelled y, spelled z] := by
  have hffff : "ffff".toList = digits 16 (0xffff : UInt16).toNat := by decide
  have hwords : "ffff".toList :: [w, x, y, z].map (fun o => decimal o.toNat) =
      [0xffff, spelled w, spelled x, spelled y, spelled z].map fun g => digits 16 g.toNat := by
    simp only [List.map_cons, List.map_nil, digits_spelled, hffff]
  rw [hwords] at h
  exact (List.map_inj_right fun _ _ hdigits => UInt16.toNat_inj.mp (digits_injective hdigits)).mp h

/-- Groups that look like octets behind `::ffff:` are spelled like them. -/
lemma looksLike_of_coloned {gs : Vector UInt16 8} (hcoloned : Coloned gs)
    (h : dashed (mapped w x y z) = dashed (.v6 gs)) : LooksLike (mapped w x y z) (.v6 gs) := by
  have hparts := split_mapped w x y z
  rw [h] at hparts
  cases hcoloned with
  | whole text =>
    have hne : gs.toList ≠ [] := fun hnil => by simpa [hnil] using gs.length_toList
    rw [dashed_eq, Net.Address.text, text, split_groupsText hne] at hparts
    have hempty : [] ∈ gs.toList.map fun g => digits 16 g.toNat := by simp [hparts]
    obtain ⟨g, -, hg⟩ := List.mem_map.mp hempty
    exact absurd hg digits_ne_nil
  | compressed front back n zeros groups text =>
    rw [dashed_eq, Net.Address.text, text, split_compressed] at hparts
    -- the first part is empty, so that no group stands in front
    cases front with
    | cons g front =>
      rw [split_groupsText (by simp), List.map_cons, List.cons_append] at hparts
      exact absurd (List.cons.inj hparts).1 digits_ne_nil
    | nil =>
      have hback : split '-' (hyphens (groupsText back)) =
          "ffff".toList :: [w, x, y, z].map fun o => decimal o.toNat :=
        (List.cons.inj (List.cons.inj hparts).2).2
      have hne : back ≠ [] := by
        rintro rfl
        simp [groupsText, hyphens, join, split] at hback
      rw [split_groupsText hne] at hback
      obtain rfl := eq_respelled_of_map hback
      have hlength := congrArg List.length groups
      have hn : n = 3 := by simpa using hlength.symm
      subst hn
      have hgs : gs.toList = [0, 0, 0, 0xffff, spelled w, spelled x, spelled y, spelled z] := groups
      refine ⟨w, x, y, z, ?_, rfl, congrArg Net.Address.v6 (Vector.toList_inj.mp hgs)⟩
      rintro ⟨rfl, rfl, rfl, rfl⟩
      rw [hgs] at zeros
      exact absurd zeros (by decide)

lemma dashed_of_looksLike (h : LooksLike a b) : dashed a = dashed b := by
  obtain ⟨w, x, y, z, hsome, rfl, rfl⟩ := h
  have hback : groupsText [0xffff, spelled w, spelled x, spelled y, spelled z] =
      "ffff".toList ++ ':' :: join [':'] ([w, x, y, z].map fun o => decimal o.toNat) := by
    simp only [groupsText, List.map_cons, List.map_nil, digits_spelled]
    rfl
  have hdecimal : ∀ u ∈ [w, x, y, z].map (fun o => decimal o.toNat), ∀ c ∈ u, IsPrinted c := by
    intro u hu c hc
    obtain ⟨o, -, rfl⟩ := List.mem_map.mp hu
    exact isPrinted_of_mem_decimal hc
  have hmapped : (mapped w x y z).text = "::ffff".toList ++ ':' :: v4Text w x y z :=
    text_mapped w x y z
  rw [dashed_eq, dashed_eq, hmapped, text_respelled hsome, hback, v4Text, hyphens_append,
    hyphens_cons_sep (.inr rfl), hyphens_join (.inl rfl) hdecimal, hyphens_cons_sep (.inr rfl),
    hyphens_cons_sep (.inr rfl), hyphens_append, hyphens_cons_sep (.inr rfl),
    hyphens_join (.inr rfl) hdecimal]
  rfl

/-- Only groups that are spelled like octets look like others. -/
lemma dashed_eq_iff : dashed a = dashed b ↔ a = b ∨ LooksLike a b ∨ LooksLike b a := by
  constructor
  · intro h
    cases a with
    | v4 w x y z =>
      cases b with
      | v4 w' x' y' z' =>
        exact .inl (text_injective
          (hyphens_injective (.inl rfl) (fun c => mem_v4Text) (fun c => mem_v4Text) h))
      | v6 gs => exact absurd h dashed_v4_ne
    | v6 gs =>
      cases b with
      | v4 w x y z => exact absurd h.symm dashed_v4_ne
      | v6 gs' =>
        rcases mapped_or_coloned gs with ⟨w, x, y, z, hgs⟩ | hgs <;>
          rcases mapped_or_coloned gs' with ⟨w', x', y', z', hgs'⟩ | hgs'
        · rw [hgs, hgs'] at h ⊢
          exact .inl (dashed_mapped_inj h)
        · rw [hgs] at h ⊢
          exact .inr (.inl (looksLike_of_coloned hgs' h))
        · rw [hgs'] at h ⊢
          exact .inr (.inr (looksLike_of_coloned hgs h.symm))
        · exact .inl (text_injective
            (hyphens_injective (.inr rfl) (mem_text_coloned hgs) (mem_text_coloned hgs') h))
  · rintro (rfl | h | h)
    · rfl
    · exact dashed_of_looksLike h
    · exact (dashed_of_looksLike h).symm

end NodeName

namespace Reconcile

open NodeName Net.Address

variable {o p : Observation} {l : List Char}

/-! ### Names of nodes -/

/-- The label of the display name. -/
def displayLabel? (o : Observation) : Option (List Char) :=
  (o.displayName?.map String.toList).bind NodeName.label?

lemma baseName_eq (o : Observation) :
    baseName o = (displayLabel? o).getD ("node-".toList ++ dashed o.address) := rfl

/-- The name with the address, if the label has room in front of it. -/
lemma withAddress_of_length_le (hl : displayLabel? o = some l)
    (hroom : l.length + 1 + (dashed o.address).length ≤ maxLength) :
    withSuffix (baseName o) (dashed o.address) = l ++ '-' :: dashed o.address := by
  obtain ⟨s, -, hs⟩ := Option.bind_eq_some_iff.mp hl
  rw [baseName_eq, hl]
  exact withSuffix_of_length_le (isLabel_of_label? hs).finish
    (fun c hc => isNameChar_of_mem_dashed hc) hroom

/-- **Names tell addresses apart, unless these look alike.** With hyphens two addresses differ,
unless they are octets behind `::ffff:` and the groups that are spelled like them. So do the names
that nodes without a label get, and the names that end with an address where the same label stands
uncut in front of it. -/
theorem names_of_addresses :
    (∀ a b : Net.Address, dashed a = dashed b ↔ a = b ∨ LooksLike a b ∨ LooksLike b a) ∧
    (∀ o p : Observation, displayLabel? o = none → displayLabel? p = none →
      (baseName o = baseName p ↔
        o.address = p.address ∨ LooksLike o.address p.address ∨ LooksLike p.address o.address)) ∧
    ∀ (o p : Observation) (l : List Char), displayLabel? o = some l → displayLabel? p = some l →
      l.length + 1 + (dashed o.address).length ≤ 63 →
      l.length + 1 + (dashed p.address).length ≤ 63 →
      (withSuffix (baseName o) (dashed o.address) = withSuffix (baseName p) (dashed p.address) ↔
        o.address = p.address ∨ LooksLike o.address p.address ∨
          LooksLike p.address o.address) := by
  refine ⟨fun a b => dashed_eq_iff, fun o p ho hp => ?_, fun o p l ho hp hroom hroom' => ?_⟩
  · rw [baseName_eq, baseName_eq, ho, hp, Option.getD_none, Option.getD_none,
      List.append_cancel_left_eq, dashed_eq_iff]
  · rw [withAddress_of_length_le ho hroom, withAddress_of_length_le hp hroom',
      List.append_cancel_left_eq, List.cons_inj_right, dashed_eq_iff]

/-- Two kitchens and two nodes without a name, at addresses that do not look alike. -/
theorem names_of_addresses_in_kitchens :
    let a : Net.Address := .v6 ⟨#[0xfe80, 0, 0, 0, 0, 0, 0, 1], rfl⟩
    let b : Net.Address := .v6 ⟨#[0xfe80, 0, 0, 0, 0, 0, 1, 1], rfl⟩
    let o : Observation := .bare "n1" "" a 80 default
    let p : Observation := .bare "n2" "" b 80 default
    let q : Observation := .bare "n3" "Kitchen" a 80 default
    let r : Observation := .bare "n4" "Kitchen" b 80 default
    (displayLabel? o = none ∧ displayLabel? p = none ∧ baseName o ≠ baseName p) ∧
    displayLabel? q = some "kitchen".toList ∧ displayLabel? r = some "kitchen".toList ∧
      7 + 1 + (dashed a).length ≤ 63 ∧ 7 + 1 + (dashed b).length ≤ 63 ∧
      withSuffix (baseName q) (dashed a) ≠ withSuffix (baseName r) (dashed b) := by
  intro a b o p q r
  obtain ⟨hdashed, hunnamed, hnamed⟩ := names_of_addresses
  have happart : ¬ (a = b ∨ LooksLike a b ∨ LooksLike b a) := fun h =>
    absurd ((hdashed a b).mpr h) (by decide)
  have ho : displayLabel? o = none := by decide
  have hp : displayLabel? p = none := by decide
  have hq : displayLabel? q = some "kitchen".toList := by decide
  have hr : displayLabel? r = some "kitchen".toList := by decide
  have ha : 7 + 1 + (dashed a).length ≤ 63 := by decide
  have hb : 7 + 1 + (dashed b).length ≤ 63 := by decide
  exact ⟨⟨ho, hp, fun h => happart ((hunnamed o p ho hp).mp h)⟩, hq, hr, ha, hb,
    fun h => happart ((hnamed q r _ hq hr ha hb).mp h)⟩

/-- **Two addresses can get one name**: octets behind `::ffff:` and the groups `1:2:3:4` behind it
look the same, and so do the names that are made of them. -/
theorem names_of_lookalikes :
    let a : Net.Address := .v6 ⟨#[0, 0, 0, 0, 0, 0xffff, 0x102, 0x304], rfl⟩
    let b : Net.Address := .v6 ⟨#[0, 0, 0, 0xffff, 1, 2, 3, 4], rfl⟩
    a ≠ b ∧ dashed a = dashed b ∧
    baseName (.bare "n1" "" a 80 default) = "node---ffff-1-2-3-4".toList ∧
    baseName (.bare "n2" "" b 80 default) = "node---ffff-1-2-3-4".toList ∧
    (candidateNames (.bare "n1" "Kitchen" a 80 default) "x7k2".toList).take 2 =
      ["kitchen".toList, "kitchen---ffff-1-2-3-4".toList] ∧
    (candidateNames (.bare "n2" "Kitchen" b 80 default) "y8l3".toList).take 2 =
      ["kitchen".toList, "kitchen---ffff-1-2-3-4".toList] := by
  decide

end Reconcile

end NodeWatch
