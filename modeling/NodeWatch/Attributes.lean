/-!
Free-form attributes of a node: texts under distinct keys, in the order of the keys.
-/

namespace NodeWatch

structure Attributes where
  entries : List (String × String)
  deriving DecidableEq

namespace Attributes

def empty : Attributes := ⟨[]⟩

/-- The entries with one put in at its place, instead of an earlier one of the same key. -/
def insertInto (k v : String) : List (String × String) → List (String × String)
  | [] => [(k, v)]
  | (l, w) :: r =>
    if k < l then (k, v) :: (l, w) :: r
    else if k = l then (k, v) :: r
    else (l, w) :: insertInto k v r

def insert (m : Attributes) (k v : String) : Attributes := ⟨insertInto k v m.entries⟩

def get? (m : Attributes) (k : String) : Option String := m.entries.lookup k

def ofList (kvs : List (String × String)) : Attributes :=
  kvs.foldl (fun m (k, v) => m.insert k v) empty

theorem lookup_insertInto_self (k v : String) (kvs : List (String × String)) :
    (insertInto k v kvs).lookup k = some v := by
  induction kvs with
  | nil => simp [insertInto]
  | cons e r ih =>
    obtain ⟨l, w⟩ := e
    by_cases h : k < l
    · simp [insertInto, h]
    · by_cases hk : k = l
      · subst hk
        simp only [insertInto, if_neg h, if_true, List.lookup_cons_self]
      · have : (k == l) = false := by simpa using hk
        simp [insertInto, h, hk, List.lookup_cons, this, ih]

theorem get?_insert_self (m : Attributes) (k v : String) : (m.insert k v).get? k = some v :=
  lookup_insertInto_self k v m.entries

theorem lookup_insertInto_ne {k j : String} (v : String) (h : j ≠ k)
    (kvs : List (String × String)) : (insertInto k v kvs).lookup j = kvs.lookup j := by
  have hjk : (j == k) = false := by simpa using h
  induction kvs with
  | nil => simp [insertInto, List.lookup_cons, hjk]
  | cons e r ih =>
    obtain ⟨l, w⟩ := e
    by_cases hl : k < l
    · simp [insertInto, hl, List.lookup_cons, hjk]
    · by_cases hk : k = l
      · subst hk
        simp only [insertInto, if_neg hl, if_true, List.lookup_cons, hjk]
      · simp [insertInto, hl, hk, List.lookup_cons, ih]

theorem get?_insert_ne {k j : String} (m : Attributes) (v : String) (h : j ≠ k) :
    (m.insert k v).get? j = m.get? j :=
  lookup_insertInto_ne v h m.entries

end Attributes

end NodeWatch
