import Mathlib.Data.List.Basic
import Mathlib.Tactic.Common
import NodeWatch.Bus.Workers

/-!
What the operations of a bus do to the queue of one observer.
-/

namespace NodeWatch

namespace Bus

variable (b : Bus) (id j : Nat)

lemma find?_map_observers {f : Observer → Observer} (hf : ∀ o, (f o).id = o.id)
    (os : List Observer) :
    (os.map f).find? (·.id = j) = (os.find? (·.id = j)).map f := by
  rw [List.find?_map]
  congr 2
  funext o
  simp [hf]

lemma find?_modify {f : Observer → Observer} (hf : ∀ o, (f o).id = o.id) :
    (b.modify id f).find? j = if j = id then (b.find? j).map f else b.find? j := by
  have hmap : (b.modify id f).find? j =
      (b.find? j).map fun o => if o.id = id then f o else o := by
    refine find?_map_observers j (fun o => ?_) b.observers
    split <;> simp [hf]
  rw [hmap]
  cases ho : b.find? j with
  | none => simp
  | some o =>
    have hid : o.id = j := by simpa using List.find?_some ho
    by_cases h : j = id <;> simp [hid, h]

lemma find?_publish (e : Event) :
    (b.publish e).find? j = (b.find? j).map fun o =>
      if o.subscribed && b.accepts o then { o with queue := o.queue ++ [e] } else o := by
  refine find?_map_observers j (fun o => ?_) b.observers
  split <;> rfl

/-- Identities are given once. -/
def Numbered : Prop := ∀ o ∈ b.observers, o.id < b.nextId

lemma numbered_ofCapacity (n : Nat) : (ofCapacity n).Numbered := by simp [Numbered, ofCapacity]

variable {b}

lemma Numbered.map {f : Observer → Observer} (h : b.Numbered) (hf : ∀ o, (f o).id = o.id) :
    ({ b with observers := b.observers.map f } : Bus).Numbered := by
  intro o ho
  obtain ⟨o', ho', rfl⟩ := List.mem_map.mp ho
  rw [hf]
  exact h o' ho'

lemma Numbered.modify (h : b.Numbered) {f : Observer → Observer} (hf : ∀ o, (f o).id = o.id) :
    (b.modify id f).Numbered :=
  h.map fun o => by split <;> simp [hf]

lemma Numbered.publish (h : b.Numbered) (e : Event) : (b.publish e).Numbered :=
  h.map fun o => by split <;> rfl

lemma Numbered.subscribe (h : b.Numbered) (name : String) : (b.subscribe name).2.Numbered := by
  intro o ho
  simp only [Bus.subscribe, List.mem_append, List.mem_singleton] at ho ⊢
  rcases ho with ho | rfl
  · exact Nat.lt_succ_of_lt (h o ho)
  · exact Nat.lt_succ_self _

/-- Nobody has an identity that is still to be given. -/
lemma Numbered.find?_eq_none (h : b.Numbered) {j : Nat} (hj : b.nextId ≤ j) :
    b.find? j = none := by
  refine List.find?_eq_none.mpr fun o ho => ?_
  have := h o ho
  simp
  omega

lemma Numbered.find?_subscribe (h : b.Numbered) (name : String) :
    (b.subscribe name).2.find? j =
      if j = b.nextId then some { id := b.nextId, name } else b.find? j := by
  have happ : (b.subscribe name).2.find? j =
      (b.find? j).or (if b.nextId = j then some { id := b.nextId, name } else none) := by
    simp [Bus.subscribe, find?, List.find?_append, List.find?_singleton]
  rw [happ]
  by_cases hj : j = b.nextId
  · subst hj
    simp [h.find?_eq_none (Nat.le_refl _)]
  · simp [hj, Ne.symm hj]

/-- Only an idle worker with a queue takes an event, and it takes the first. -/
lemma take?_eq_some {id : Nat} {e : Event} {b' : Bus} (h : b.take? id = some (e, b')) :
    ∃ o rest, b.find? id = some o ∧ o.handling = none ∧ o.queue = e :: rest ∧
      b' = b.modify id fun o => { o with queue := o.queue.tail, handling := some e } := by
  unfold take? at h
  split at h
  next i n s e' rest ho =>
    simp only [Option.some.injEq, Prod.mk.injEq] at h
    obtain ⟨rfl, rfl⟩ := h
    exact ⟨_, rest, ho, rfl, rfl, rfl⟩
  next => simp at h

end Bus

namespace Workers

@[simp] lemma publish_bus (w : Workers) (e : Event) : (w.publish e).bus = w.bus.publish e := rfl

@[simp] lemma subscribe_bus (w : Workers) (name : String) :
    (w.subscribe name).2.bus = (w.bus.subscribe name).2 := rfl

@[simp] lemma unsubscribe_bus (w : Workers) (id : Nat) :
    (w.unsubscribe id).2.bus = (w.bus.unsubscribe id).2 := rfl

end Workers

end NodeWatch
