/-!
The order in which a hash table goes through its entries. Nothing that is known of the entries
tells it, so it is given from outside: as a place for each key.
-/

namespace NodeWatch

/-- Where keys stand in a hash table. Keys in one place stand in the order in which they came. -/
abbrev Places : Type := String → Nat

/-- All keys in one place. -/
def Places.same : Places := fun _ => 0

/-- Where a hash table puts its keys, by all the keys that it holds in the order in which they
came: when it grows, they may change places. -/
abbrev Hashing : Type := List String → Places

def Hashing.same : Hashing := fun _ => .same

section

variable {α : Type} (places : Places) (key : α → String)

/-- An entry in front of the first one that does not stand before it. -/
def putInPlace (a : α) : List α → List α
  | [] => [a]
  | b :: bs => if places (key a) ≤ places (key b) then a :: b :: bs else b :: putInPlace a bs

/-- The entries as a hash table goes through them. -/
def inPlaces : List α → List α
  | [] => []
  | a :: as => putInPlace places key a (inPlaces as)

theorem putInPlace_perm (a : α) (as : List α) : (putInPlace places key a as).Perm (a :: as) := by
  induction as with
  | nil => exact .refl _
  | cons b bs ih =>
    unfold putInPlace
    split
    · exact .refl _
    · exact (ih.cons b).trans (.swap a b bs)

/-- No entry is left out, and none comes twice. -/
theorem inPlaces_perm (as : List α) : (inPlaces places key as).Perm as := by
  induction as with
  | nil => exact .refl _
  | cons a as ih => exact (putInPlace_perm places key a _).trans (ih.cons a)

@[simp] theorem mem_inPlaces {a : α} {as : List α} : a ∈ inPlaces places key as ↔ a ∈ as :=
  (inPlaces_perm places key as).mem_iff

@[simp] theorem length_inPlaces (as : List α) : (inPlaces places key as).length = as.length :=
  (inPlaces_perm places key as).length_eq

/-- Entries that are changed under their keys stay where they are. -/
theorem inPlaces_map {f : α → α} (h : ∀ a, key (f a) = key a) (as : List α) :
    inPlaces places key (as.map f) = (inPlaces places key as).map f := by
  have hput : ∀ a bs, putInPlace places key (f a) (bs.map f) =
      (putInPlace places key a bs).map f := by
    intro a bs
    induction bs with
    | nil => rfl
    | cons b bs ih =>
      simp only [List.map_cons, putInPlace, h]
      split
      · rfl
      · rw [ih, List.map_cons]
  induction as with
  | nil => rfl
  | cons a as ih => rw [List.map_cons, inPlaces, ih, hput, inPlaces]

end

end NodeWatch
