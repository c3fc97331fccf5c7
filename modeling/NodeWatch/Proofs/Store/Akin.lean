import NodeWatch.Proofs.Store.Written

/-!
Records that say the same of a node under other names.
-/

namespace NodeWatch.Store

namespace Record

/-- What a record says of a node: all but its identity, its name and the times of its writing. -/
def content (r : Record) : Record :=
  { r with id := "", name := "", createdAt := default, updatedAt := default }

variable {m : Medium} {r s told : Record} {x : Error}

section

variable (h : s.content = r.content)
include h

lemma status_of_content : s.status = r.status := (congrArg Record.status h :)
lemma architecture_of_content : s.architecture = r.architecture :=
  (congrArg Record.architecture h :)
lemma model_of_content : s.model = r.model := (congrArg Record.model h :)
lemma lastSeen_of_content : s.lastSeen = r.lastSeen := (congrArg Record.lastSeen h :)
lemma deletedAt_of_content : s.deletedAt = r.deletedAt := (congrArg Record.deletedAt h :)
lemma version_of_content : s.version = r.version := (congrArg Record.version h :)

/-- What is written changes contents alike. -/
lemma content_touched (t : Time.Instant) : (s.touched t).content = (r.touched t).content :=
  (congrArg (Record.touched t) h :)

lemma content_revised (now now' : Time.Instant) (p : Patch) :
    (s.revised now p).content = (r.revised now' p).content :=
  (congrArg (fun x => (Record.revised default p x).content) h :)

lemma content_asRead (seen created created' updated updated' : Time.Instant)
    (deleted : Option Time.Instant) :
    (asRead { s with
      lastSeen := seen, createdAt := created, updatedAt := updated,
      deletedAt := deleted }).content =
    (asRead { r with
      lastSeen := seen, createdAt := created', updatedAt := updated',
      deletedAt := deleted }).content :=
  (congrArg
    (fun x : Record => (asRead { x with lastSeen := seen, deletedAt := deleted }).content) h :)

end

/-- Both records have one content, and each of them can be read if the other one can. -/
structure Akin (m : Medium) (r s : Record) : Prop where
  content : s.content = r.content
  times : (s.createdAt = r.createdAt ∧ s.updatedAt = r.updatedAt) ∨
    (m.Keeps r.createdAt ∧ m.Keeps r.updatedAt) ∧ m.Keeps s.createdAt ∧ m.Keeps s.updatedAt

/-! ### Reading them -/

section

variable {α : Type} {f g : α → Except Error Record}

lemma content_bind (y : Except Error α)
    (h : ∀ a, (f a).map Record.content = (g a).map Record.content) :
    (y >>= f).map Record.content = (y >>= g).map Record.content := by
  cases y with
  | error x => rfl
  | ok a => exact h a

lemma content_bind_of_ok {y z : Except Error α} {a b : α} (hyz : y = z ∨ y = .ok a ∧ z = .ok b)
    (h : ∀ a b, (f a).map Record.content = (g b).map Record.content) :
    (y >>= f).map Record.content = (z >>= g).map Record.content := by
  rcases hyz with rfl | ⟨rfl, rfl⟩
  · exact content_bind y fun a => h a a
  · exact h a b

end

namespace Akin

variable (h : r.Akin m s)
include h

open Sql.Row in
/-- **Of both records the same is told.** -/
lemma tell_content : (m.tell s).map Record.content = (m.tell r).map Record.content := by
  cases m with
  | memory _ => exact congrArg Except.ok h.content
  | table =>
    have hcreated : instantOf (instantText s.createdAt) = instantOf (instantText r.createdAt) ∨
        instantOf (instantText s.createdAt) = .ok s.createdAt ∧
          instantOf (instantText r.createdAt) = .ok r.createdAt :=
      h.times.imp (fun ht => by rw [ht.1])
        fun ht => ⟨instantOf_instantText ht.2.1, instantOf_instantText ht.1.1⟩
    have hupdated : instantOf (instantText s.updatedAt) = instantOf (instantText r.updatedAt) ∨
        instantOf (instantText s.updatedAt) = .ok s.updatedAt ∧
          instantOf (instantText r.updatedAt) = .ok r.updatedAt :=
      h.times.imp (fun ht => by rw [ht.2])
        fun ht => ⟨instantOf_instantText ht.2.2, instantOf_instantText ht.1.2⟩
    simp only [Medium.tell, record_eq_bind, lastSeen_of_content h.content,
      deletedAt_of_content h.content]
    refine content_bind _ fun seen => ?_
    refine content_bind_of_ok hcreated fun _ _ => ?_
    refine content_bind_of_ok hupdated fun _ _ => ?_
    exact content_bind _ fun deleted => congrArg Except.ok (content_asRead h.content ..)

lemma tell_error (hr : m.tell r = .error x) : m.tell s = .error x := by
  have hsame := h.tell_content
  rw [hr] at hsame
  cases hs : m.tell s with
  | error y => rw [hs] at hsame; exact hsame
  | ok told => rw [hs] at hsame; cases hsame

lemma tell_ok (hr : m.tell r = .ok told) :
    ∃ told', m.tell s = .ok told' ∧ told'.content = told.content := by
  have hsame := h.tell_content
  rw [hr] at hsame
  cases hs : m.tell s with
  | error y => rw [hs] at hsame; cases hsame
  | ok told' =>
    rw [hs] at hsame
    exact ⟨told', rfl, Except.ok.inj hsame⟩

end Akin

end Record

end NodeWatch.Store
