import Mathlib.Data.List.Basic
import Mathlib.Data.List.Nodup
import Mathlib.Tactic.Common
import NodeWatch.Store.Record

/-!
Lists of records as stores keep them: looking one up, changing one and adding one.

What a store must never break is told by the keys of the records alone: their identities, names and
addresses, and which of them are live. A change that leaves the keys as they are breaks nothing.
-/

namespace NodeWatch.Store

namespace Record

/-- What a record must differ in from others. -/
structure Key where
  id : String
  name : String
  address : Net.Address
  live : Bool
  deriving DecidableEq

def key (r : Record) : Key := ⟨r.id, r.name, r.address, r.isLive⟩

end Record

/-- A change that leaves the keys alone. -/
def KeepsKey (f : Record → Record) : Prop := ∀ r, (f r).key = r.key

section

variable {f : Record → Record} (hf : KeepsKey f) (r : Record)
include hf

lemma KeepsKey.id_eq : (f r).id = r.id := congrArg Record.Key.id (hf r)
lemma KeepsKey.name_eq : (f r).name = r.name := congrArg Record.Key.name (hf r)
lemma KeepsKey.address_eq : (f r).address = r.address := congrArg Record.Key.address (hf r)
lemma KeepsKey.isLive_eq : (f r).isLive = r.isLive := congrArg Record.Key.live (hf r)

end

/-- Distinct identities, and distinct names and addresses among the live records. -/
def Orderly (rs : List Record) : Prop :=
  (rs.map (·.id)).Nodup ∧ ∀ r ∈ rs, ∀ s ∈ rs, r.isLive = true → s.isLive = true →
    (r.address = s.address ∨ r.name = s.name) → r.id = s.id

/-- The live record at an address. -/
def liveAt (rs : List Record) (a : Net.Address) : Option Record :=
  rs.find? fun r => r.isLive && r.address = a

def withId (rs : List Record) (id : String) : Option Record := rs.find? (·.id = id)

/-- The records with the one of an identity changed. -/
def amend (id : String) (f : Record → Record) (rs : List Record) : List Record :=
  rs.map fun r => if r.id = id then f r else r

/-- A live record has the name or the address. -/
def Taken (rs : List Record) (name : String) (a : Net.Address) : Prop :=
  ∃ r ∈ rs, r.isLive = true ∧ (r.address = a ∨ r.name = name)

variable {rs : List Record} {r s : Record} {id : String} {a : Net.Address}
  {f g : Record → Record}

lemma orderly_nil : Orderly [] := ⟨List.nodup_nil, by simp⟩

/-! ### Looking up -/

lemma liveAt_eq_some (h : liveAt rs a = some r) : r ∈ rs ∧ r.isLive = true ∧ r.address = a := by
  have hp := List.find?_some h
  simp only [Bool.and_eq_true, decide_eq_true_eq] at hp
  exact ⟨List.mem_of_find?_eq_some h, hp⟩

lemma liveAt_eq_none (h : liveAt rs a = none) : ∀ r ∈ rs, r.isLive = true → r.address ≠ a := by
  intro r hr hl ha
  have := List.find?_eq_none.mp h r hr
  simp [hl, ha] at this

lemma withId_eq_some (h : withId rs id = some r) : r ∈ rs ∧ r.id = id :=
  ⟨List.mem_of_find?_eq_some h, by simpa using List.find?_some h⟩

lemma Orderly.eq_of_id (h : Orderly rs) (hr : r ∈ rs) (hs : s ∈ rs) (he : r.id = s.id) : r = s :=
  List.inj_on_of_nodup_map h.1 hr hs he

lemma Orderly.withId_of_mem (h : Orderly rs) (hr : r ∈ rs) : withId rs r.id = some r := by
  cases hw : withId rs r.id with
  | none => exact absurd (List.find?_eq_none.mp hw r hr) (by simp)
  | some s =>
    obtain ⟨hs, he⟩ := withId_eq_some hw
    rw [h.eq_of_id hs hr he]

lemma Orderly.liveAt_of_mem (h : Orderly rs) (hr : r ∈ rs) (hl : r.isLive = true)
    (ha : r.address = a) : liveAt rs a = some r := by
  cases hf : liveAt rs a with
  | none => exact absurd ha (liveAt_eq_none hf r hr hl)
  | some s =>
    obtain ⟨hs, hsl, hsa⟩ := liveAt_eq_some hf
    rw [h.eq_of_id hs hr (h.2 s hs r hr hsl hl (.inl (hsa.trans ha.symm)))]

lemma Orderly.named_of_mem (h : Orderly rs) (hr : r ∈ rs) (hl : r.isLive = true) :
    (rs.find? fun s => s.isLive && s.name = r.name) = some r := by
  cases hf : rs.find? fun s => s.isLive && s.name = r.name with
  | none => exact absurd (List.find?_eq_none.mp hf r hr) (by simp [hl])
  | some s =>
    have hp := List.find?_some hf
    simp only [Bool.and_eq_true, decide_eq_true_eq] at hp
    have hs := List.mem_of_find?_eq_some hf
    rw [h.eq_of_id hs hr (h.2 s hs r hr hp.1 hl (.inr hp.2))]

/-! ### Changing one -/

lemma keepsKey_ite (hf : KeepsKey f) (id : String) :
    KeepsKey fun r => if r.id = id then f r else r := by
  intro r
  by_cases h : r.id = id
  · simp [h, hf r]
  · simp [h]

lemma mem_amend : s ∈ amend id f rs ↔ ∃ r ∈ rs, s = if r.id = id then f r else r := by
  simp only [amend, List.mem_map, eq_comm]

/-- What makes no difference to the record of the identity makes none at all. -/
lemma amend_eq_self (h : ∀ s ∈ rs, s.id = id → f s = s) : amend id f rs = rs := by
  unfold amend
  conv_rhs => rw [← List.map_id rs]
  refine List.map_congr_left fun s hs => ?_
  split
  next he => exact h s hs he
  next => rfl

/-- Only what becomes of the record of the identity counts. -/
lemma amend_congr (h : ∀ s ∈ rs, s.id = id → f s = g s) : amend id f rs = amend id g rs := by
  refine List.map_congr_left fun s hs => ?_
  split
  next he => exact h s hs he
  next => rfl

lemma Orderly.amend_same (h : Orderly rs) (hr : withId rs id = some r) :
    amend id (fun _ => r) rs = rs := by
  obtain ⟨hmem, rfl⟩ := withId_eq_some hr
  exact amend_eq_self fun s hs he => h.eq_of_id hmem hs he.symm

/-- Nobody before or after it has the identity of a record. -/
lemma Orderly.id_ne_of_append {front back : List Record} (h : Orderly (front ++ r :: back)) :
    ∀ s ∈ front ++ back, s.id ≠ r.id := by
  have hn := h.1
  rw [List.map_append, List.map_cons] at hn
  obtain ⟨hno, -⟩ := List.nodup_cons.mp (List.nodup_middle.mp hn)
  intro s hs he
  rw [← List.map_append] at hno
  exact hno (he ▸ List.mem_map_of_mem hs)

lemma amend_append_cons {front back : List Record} (h : ∀ s ∈ front ++ back, s.id ≠ r.id) :
    amend r.id f (front ++ r :: back) = front ++ f r :: back := by
  have hsplit : amend r.id f (front ++ r :: back) =
      amend r.id f front ++ f r :: amend r.id f back := by simp [amend]
  rw [hsplit, amend_eq_self fun s hs he => absurd he (h s (by simp [hs])),
    amend_eq_self fun s hs he => absurd he (h s (by simp [hs]))]

lemma liveAt_map (hf : KeepsKey f) (rs : List Record) (a : Net.Address) :
    liveAt (rs.map f) a = (liveAt rs a).map f := by
  rw [liveAt, List.find?_map]
  congr 2
  funext r
  simp [hf.isLive_eq, hf.address_eq]

/-- A record that changes under its key is changed by what leaves the keys alone. -/
lemma Orderly.amend_eq_map (h : Orderly rs) (hr : r ∈ rs) (hkey : (f r).key = r.key) :
    ∃ g, KeepsKey g ∧ amend r.id f rs = rs.map g ∧ g r = f r ∧ ∀ s, s ≠ r → g s = s := by
  refine ⟨fun s => if s = r then f r else s, fun s => ?_, ?_, if_pos rfl, fun s hs => if_neg hs⟩
  · by_cases hs : s = r <;> simp [hs, hkey]
  · refine List.map_congr_left fun s hs => ?_
    by_cases he : s.id = r.id
    · obtain rfl := h.eq_of_id hs hr he
      simp
    · have hne : s ≠ r := fun h => he (congrArg Record.id h)
      simp [he, hne]

lemma Orderly.liveAt_amend (h : Orderly rs) (hr : liveAt rs a = some r) (hkey : (f r).key = r.key) :
    liveAt (amend r.id f rs) a = some (f r) ∧
      ∀ b, b ≠ a → liveAt (amend r.id f rs) b = liveAt rs b := by
  obtain ⟨hmem, -, ha⟩ := liveAt_eq_some hr
  obtain ⟨g, hg, hmap, hgr, hothers⟩ := h.amend_eq_map hmem hkey
  rw [hmap]
  refine ⟨by rw [liveAt_map hg, hr, Option.map_some, hgr], fun b hb => ?_⟩
  rw [liveAt_map hg]
  cases hs : liveAt rs b with
  | none => rfl
  | some s =>
    have hne : s ≠ r := by
      rintro rfl
      exact hb ((liveAt_eq_some hs).2.2.symm.trans ha)
    rw [Option.map_some, hothers s hne]

lemma withId_map (hf : KeepsKey f) (rs : List Record) (id : String) :
    withId (rs.map f) id = (withId rs id).map f := by
  rw [withId, List.find?_map]
  congr 2
  funext r
  simp [hf.id_eq]

lemma Orderly.withId_amend (h : Orderly rs) (hr : r ∈ rs) (hkey : (f r).key = r.key) :
    withId (Store.amend r.id f rs) r.id = some (f r) ∧
      ∀ id, id ≠ r.id → withId (Store.amend r.id f rs) id = withId rs id := by
  obtain ⟨g, hg, hmap, hgr, hothers⟩ := h.amend_eq_map hr hkey
  rw [hmap]
  refine ⟨by rw [withId_map hg, h.withId_of_mem hr, Option.map_some, hgr], fun id hid => ?_⟩
  rw [withId_map hg]
  cases hs : withId rs id with
  | none => rfl
  | some s =>
    have hne : s ≠ r := by
      rintro rfl
      exact hid (withId_eq_some hs).2.symm
    rw [Option.map_some, hothers s hne]

lemma Orderly.map (h : Orderly rs) (hf : KeepsKey f) : Orderly (rs.map f) := by
  constructor
  · have : (rs.map f).map (·.id) = rs.map (·.id) := by
      rw [List.map_map]
      exact List.map_congr_left fun r _ => hf.id_eq r
    rw [this]
    exact h.1
  · intro r hr s hs hrl hsl hrs
    obtain ⟨r, hr', rfl⟩ := List.mem_map.mp hr
    obtain ⟨s, hs', rfl⟩ := List.mem_map.mp hs
    rw [hf.isLive_eq] at hrl hsl
    rw [hf.address_eq, hf.address_eq, hf.name_eq, hf.name_eq] at hrs
    rw [hf.id_eq, hf.id_eq]
    exact h.2 r hr' s hs' hrl hsl hrs

lemma Orderly.of_map (h : Orderly (rs.map f)) (hf : KeepsKey f) : Orderly rs := by
  constructor
  · have : (rs.map f).map (·.id) = rs.map (·.id) := by
      rw [List.map_map]
      exact List.map_congr_left fun r _ => hf.id_eq r
    exact this ▸ h.1
  · intro r hr s hs hrl hsl hrs
    have := h.2 (f r) (List.mem_map_of_mem hr) (f s) (List.mem_map_of_mem hs)
    rw [hf.isLive_eq, hf.isLive_eq, hf.address_eq, hf.address_eq, hf.name_eq, hf.name_eq,
      hf.id_eq, hf.id_eq] at this
    exact this hrl hsl hrs

lemma Orderly.amend (h : Orderly rs) (hf : KeepsKey f) (id : String) : Orderly (amend id f rs) :=
  h.map (keepsKey_ite hf id)

/-- A record gives way to another one with its identity. -/
lemma Orderly.replace (h : Orderly rs) (hid : s.id = id)
    (hfree : s.isLive = true → ∀ r ∈ rs, r.isLive = true → r.id ≠ id →
      ¬ (r.address = s.address ∨ r.name = s.name)) : Orderly (Store.amend id (fun _ => s) rs) := by
  constructor
  · have : (Store.amend id (fun _ => s) rs).map (·.id) = rs.map (·.id) := by
      rw [Store.amend, List.map_map]
      refine List.map_congr_left fun x _ => ?_
      by_cases hx : x.id = id <;> simp [hx, hid]
    rw [this]
    exact h.1
  · intro x hx y hy hxl hyl hxy
    obtain ⟨x, hx', rfl⟩ := mem_amend.mp hx
    obtain ⟨y, hy', rfl⟩ := mem_amend.mp hy
    by_cases hxid : x.id = id <;> by_cases hyid : y.id = id
    · simp only [hxid, hyid, if_true]
    · simp only [hxid, hyid, if_true, if_false] at hxl hyl hxy
      exact absurd (hxy.imp Eq.symm Eq.symm) (hfree hxl y hy' hyl hyid)
    · simp only [hxid, hyid, if_true, if_false] at hxl hyl hxy
      exact absurd hxy (hfree hyl x hx' hxl hxid)
    · simp only [hxid, hyid, if_false] at hxl hyl hxy ⊢
      exact h.2 x hx' y hy' hxl hyl hxy

lemma withId_replace (hid : s.id = id) (rs : List Record) (id' : String) :
    withId (amend id (fun _ => s) rs) id' =
      if id' = id then (withId rs id').map fun _ => s else withId rs id' := by
  induction rs with
  | nil => simp [withId, amend]
  | cons r rs ih =>
    simp only [withId, amend] at ih
    by_cases hr : r.id = id <;> by_cases h : id' = id
    · simp [withId, amend, hr, h, hid]
    · have hne : ¬ id = id' := fun he => h he.symm
      simp [withId, amend, hr, hid, h, hne, ih]
    · subst h
      simp [withId, amend, hr, ih]
    · by_cases hr' : r.id = id' <;> simp [withId, amend, hr, hr', h, ih]

/-! ### Adding one -/

lemma withId_append (h : withId rs id = some r) (s : Record) :
    withId (rs ++ [s]) id = some r := by
  rw [withId, List.find?_append, ← withId, h]
  rfl

lemma Orderly.append (h : Orderly rs) (hid : ∀ s ∈ rs, s.id ≠ r.id)
    (hfree : r.isLive = true → ¬ Taken rs r.name r.address) : Orderly (rs ++ [r]) := by
  constructor
  · rw [List.map_append, List.nodup_append]
    refine ⟨h.1, List.nodup_singleton _, ?_⟩
    intro x hx y hy he
    obtain ⟨s, hs, rfl⟩ := List.mem_map.mp hx
    simp only [List.map_cons, List.map_nil, List.mem_singleton] at hy
    exact hid s hs (he.trans hy)
  · intro x hx y hy hxl hyl hxy
    rw [List.mem_append, List.mem_singleton] at hx hy
    rcases hx with hx | rfl <;> rcases hy with hy | rfl
    · exact h.2 x hx y hy hxl hyl hxy
    · exact absurd ⟨x, hx, hxl, hxy⟩ (hfree hyl)
    · exact absurd ⟨y, hy, hyl, hxy.imp Eq.symm Eq.symm⟩ (hfree hxl)
    · rfl

lemma liveAt_append (rs : List Record) (r : Record) (a : Net.Address) :
    liveAt (rs ++ [r]) a =
      (liveAt rs a).or (if r.isLive = true ∧ r.address = a then some r else none) := by
  unfold liveAt
  rw [List.find?_append, List.find?_singleton]
  congr 1
  by_cases hl : r.isLive = true <;> by_cases ha : r.address = a <;> simp [hl, ha]

end NodeWatch.Store
