import Mathlib.Data.List.Induction
import NodeWatch.Proofs.Program
import NodeWatch.Proofs.Store.Sql.Statement

/-!
Many handles on one table.

Each call is a program of one or two statements, and between two statements of one call those of
others may run. What a call writes with its second statement depends on what it has read with its
first; `Stage` keeps what that was, and `Moves` says what a turn can make of a record.
-/

namespace NodeWatch.Store.Sql

/-- A call with its answer. -/
abbrev Answered : Type := (op : Operation) × op.Answer

/-- The statements of a call. -/
def statements (q : Request) : Script Answered :=
  (script q.stamp q.op).bind fun a => .done ⟨q.op, a⟩

/-- The calls of all handles, each as far as it has got, and the table, after the turns. -/
def after (qs : List Request) (t : Table) (turns : List Nat) : List (Script Answered) × Table :=
  Program.interleave (fun _ : Unit => Table.exec) (turns.map (·, ())) (qs.map statements) t

/-- What is read of the record of an identity. -/
def stored (t : Table) (id : String) : Except Error (Option Record) :=
  ((selectRecord (.id id)).run Table.exec t).1

/-! ### The statements of one call -/

/-- What is left of an update that writes the record. -/
def writing (id : String) (v : Nat) (p : Patch) (r : Record) : Script Answered :=
  .ask (.replace (Row.ofRecord r)) fun a =>
    .done ⟨.update id v p, (lift (Fault.ofWrite r) a).map fun _ => r⟩

/-- What is left of a call that writes a sign of life. -/
def touching (id : String) (u : Time.Instant) : Script Answered :=
  .ask (.setLastSeen id (Row.instantText u)) fun a =>
    .done ⟨.touch id u, (lift Fault.error a).map fun _ => ()⟩

lemma once_select {α : Type} (k : Key) (f : Except Error (Option Record) → Script α) (t : Table) :
    ((selectRecord k).bind f).once Table.exec t =
      (f ((selectRecord k).run Table.exec t).1, t) := by
  have h : (Table.exec (.selectOne k) t).2 = t := by
    simp only [Table.exec]
    split <;> rfl
  exact Prod.ext rfl h

/-- A call that begins with reading the record goes on with what it has read. -/
lemma once_stored {α β : Type} {id : String} {t : Table} {found : Except Error (Option Record)}
    (h : stored t id = found) (f : Except Error (Option Record) → Script α) (g : α → Script β) :
    (((selectRecord (.id id)).bind f).bind g).once Table.exec t = ((f found).bind g, t) := by
  rw [← h]
  exact once_select (.id id) (fun a => (f a).bind g) t

/-- The first statement of an update: it fails, or has found its version. -/
lemma once_update (s : Stamp) (id : String) (v : Nat) (p : Patch) (t : Table) :
    (∃ e, (statements ⟨s, .update id v p⟩).once Table.exec t =
      (.done ⟨.update id v p, .error e⟩, t)) ∨
    ∃ o, stored t id = .ok (some o) ∧ o.version = v ∧
      (statements ⟨s, .update id v p⟩).once Table.exec t =
        (writing id v p (o.revised s.now p), t) := by
  cases hread : stored t id with
  | error e => exact .inl ⟨e, once_stored hread _ _⟩
  | ok found =>
    cases found with
    | none => exact .inl ⟨.notFound id, once_stored hread _ _⟩
    | some o =>
      by_cases hv : o.version = v
      · subst hv
        by_cases hmax : maxVersion ≤ o.version
        · refine .inl ⟨.versionOverflow, (once_stored hread _ _).trans ?_⟩
          simp only [ne_eq, not_true, if_false, hmax, if_true]
          rfl
        · refine .inr ⟨o, rfl, rfl, (once_stored hread _ _).trans ?_⟩
          simp only [ne_eq, not_true, if_false, hmax]
          rfl
      · refine .inl ⟨.conflict id v o.version, (once_stored hread _ _).trans ?_⟩
        simp only [ne_eq, hv, not_false_eq_true, if_true]
        rfl

/-- The first statement of a sign of life: it has found an earlier one, or the call is over. -/
lemma once_touch (s : Stamp) (id : String) (u : Time.Instant) (t : Table) :
    (∃ a, (statements ⟨s, .touch id u⟩).once Table.exec t = (.done ⟨.touch id u, a⟩, t)) ∨
    ∃ o, stored t id = .ok (some o) ∧ o.lastSeen < u ∧
      (statements ⟨s, .touch id u⟩).once Table.exec t = (touching id u, t) := by
  cases hread : stored t id with
  | error e => exact .inl ⟨.error e, once_stored hread _ _⟩
  | ok found =>
    cases found with
    | none => exact .inl ⟨.error (.notFound id), once_stored hread _ _⟩
    | some o =>
      by_cases hlt : o.lastSeen < u
      · refine .inr ⟨o, rfl, hlt, (once_stored hread _ _).trans ?_⟩
        simp only [hlt, if_true]
        rfl
      · refine .inl ⟨.ok (), (once_stored hread _ _).trans ?_⟩
        simp only [hlt, if_false]
        rfl

/-! ### Calls among others -/

/-- The call has had a turn after the first turns, and no other one since. -/
structure Begun (turns front middle : List Nat) (i : Nat) : Prop where
  split : turns = front ++ i :: middle
  first : i ∉ front
  none_since : i ∉ middle

/-- The two statements of an update among the turns: the first has read the record `x`, and the
second has written `x` with the changes over the record `c`. -/
inductive Wrote (qs : List Request) (t : Table) (turns : List Nat) (i : Nat) (s : Stamp)
    (id : String) (v : Nat) (p : Patch) (x c : Record) : Prop where
  | mk {front middle back : List Nat} (begun : Begun (front ++ i :: middle) front middle i)
    (split : turns = front ++ i :: middle ++ i :: back)
    (read : stored (after qs t front).2 id = .ok (some x)) (version : x.version = v)
    (found : stored (after qs t (front ++ i :: middle)).2 id = .ok (some c))
    (written : stored (after qs t (front ++ i :: middle ++ [i])).2 id =
      .ok (some (x.revised s.now p).asRead))

/-- How far a call has got: it waits for its first turn, is about to write what it must after what
it has read, or has finished. -/
inductive Stage (qs : List Request) (t : Table) (turns : List Nat) (i : Nat) :
    Request → Script Answered → Prop where
  | waiting {q : Request} (never : i ∉ turns) : Stage qs t turns i q (statements q)
  | writing {s : Stamp} {id : String} {v : Nat} {p : Patch} {front middle : List Nat} {o : Record}
    (begun : Begun turns front middle i) (read : stored (after qs t front).2 id = .ok (some o))
    (version : o.version = v) :
    Stage qs t turns i ⟨s, .update id v p⟩ (writing id v p (o.revised s.now p))
  | touching {s : Stamp} {id : String} {u : Time.Instant} {front middle : List Nat} {o : Record}
    (begun : Begun turns front middle i) (read : stored (after qs t front).2 id = .ok (some o))
    (later : o.lastSeen < u) : Stage qs t turns i ⟨s, .touch id u⟩ (touching id u)
  | finished {q : Request} {a : Answered}
    (wrote : ∀ s id v p r, q = ⟨s, .update id v p⟩ → a = ⟨.update id v p, .ok r⟩ →
      ∃ x c, r = x.revised s.now p ∧ Wrote qs t turns i s id v p x c) :
    Stage qs t turns i q (.done a)

/-- What a turn of a call after others makes of the record of an identity: nothing, or what its
one statement or the second of its two statements writes. -/
inductive Moves (qs : List Request) (t : Table) (turns : List Nat) (i : Nat) (id : String)
    (o : Record) : Record → Prop where
  | stays : Moves qs t turns i id o o
  | deleted {s : Stamp} (request : qs[i]? = some ⟨s, .delete id⟩) :
    Moves qs t turns i id o (o.deleted s.now)
  | touched {s : Stamp} {u : Time.Instant} {front middle : List Nat} {x : Record}
    (request : qs[i]? = some ⟨s, .touch id u⟩) (begun : Begun turns front middle i)
    (read : stored (after qs t front).2 id = .ok (some x)) (later : x.lastSeen < u) :
    Moves qs t turns i id o (o.seenAt u)
  | written {s : Stamp} {v : Nat} {p : Patch} {front middle : List Nat} {x : Record}
    (request : qs[i]? = some ⟨s, .update id v p⟩) (begun : Begun turns front middle i)
    (read : stored (after qs t front).2 id = .ok (some x)) (version : x.version = v)
    (answered : (after qs t (turns ++ [i])).1[i]? =
      some (.done ⟨.update id v p, .ok (x.revised s.now p)⟩)) :
    Moves qs t turns i id o (x.revised s.now p).asRead

section

variable {qs : List Request} {t : Table} {turns front middle : List Nat} {i j : Nat} {q : Request}
  {p : Script Answered}

lemma after_concat (qs : List Request) (t : Table) (turns : List Nat) (i : Nat) :
    after qs t (turns ++ [i]) =
      Program.turn Table.exec i (after qs t turns).1 (after qs t turns).2 := by
  rw [after, List.map_append, List.map_singleton, Program.interleave_concat]
  rfl

lemma length_after (qs : List Request) (t : Table) (turns : List Nat) :
    (after qs t turns).1.length = qs.length := by
  induction turns using List.reverseRecOn with
  | nil => exact List.length_map _
  | append_singleton turns i ih => rw [after_concat, Program.length_turn, ih]

/-- The turn of a call. -/
lemma after_turn (h : (after qs t turns).1[i]? = some p) : after qs t (turns ++ [i]) =
    ((after qs t turns).1.set i (p.once Table.exec (after qs t turns).2).1,
      (p.once Table.exec (after qs t turns).2).2) := by
  rw [after_concat, Program.turn_of_some h]

/-- A turn of nobody. -/
lemma after_idle (h : qs[i]? = none) : after qs t (turns ++ [i]) = after qs t turns := by
  have hnone : (after qs t turns).1[i]? = none := by
    rw [List.getElem?_eq_none_iff] at h ⊢
    rwa [length_after]
  rw [after_concat, Program.turn_of_none hnone]

/-- A call that has finished stays so. -/
lemma after_done {a : Answered} (h : (after qs t turns).1[i]? = some (.done a))
    (more : List Nat) : (after qs t (turns ++ more)).1[i]? = some (.done a) := by
  induction more using List.reverseRecOn with
  | nil => rwa [List.append_nil]
  | append_singleton more j ih =>
    rw [← List.append_assoc]
    cases hj : (after qs t (turns ++ more)).1[j]? with
    | none => rw [after_concat, Program.turn_of_none hj, ih]
    | some p =>
      rw [after_turn hj, List.getElem?_set]
      by_cases he : j = i
      · subst he
        obtain rfl := Option.some.inj (ih.symm.trans hj)
        rw [if_pos rfl, if_pos (List.getElem?_eq_some_iff.mp hj).1]
        rfl
      · rw [if_neg he, ih]

lemma Begun.later (h : Begun turns front middle j) (hne : j ≠ i) :
    Begun (turns ++ [i]) front (middle ++ [i]) j where
  split := by rw [h.split]; simp
  first := h.first
  none_since := by simp [h.none_since, hne]

lemma Wrote.later {s : Stamp} {id : String} {v : Nat} {p : Patch} {x c : Record}
    (h : Wrote qs t turns j s id v p x c) (i : Nat) :
    Wrote qs t (turns ++ [i]) j s id v p x c := by
  obtain ⟨begun, split, read, version, found, written⟩ := h
  exact .mk begun (by rw [split]; simp; rfl) read version found written

/-- A turn of another call. -/
lemma Stage.later (h : Stage qs t turns j q p) (hne : j ≠ i) :
    Stage qs t (turns ++ [i]) j q p := by
  cases h with
  | waiting never => exact .waiting (by simp [never, hne])
  | writing begun read version => exact .writing (begun.later hne) read version
  | touching begun read later => exact .touching (begun.later hne) read later
  | finished wrote =>
    exact .finished fun s id v p r hq ha =>
      let ⟨x, c, hr, h⟩ := wrote s id v p r hq ha
      ⟨x, c, hr, h.later _⟩

/-! ### What is kept -/

/-- What no statement but an insertion writes. -/
structure SameOrigin (o o' : Record) : Prop where
  id : o'.id = o.id
  address : o'.address = o.address
  createdAt : o'.createdAt = o.createdAt

/-- After the turns the table is in working order, every call is at a stage of its own, and a
record that was once read is still there. -/
structure Intact (qs : List Request) (t : Table) (bound : Nat) (turns : List Nat)
    (os : List Record) : Prop where
  order : (after qs t turns).2.InOrder os
  small : ∀ o ∈ os, o.version ≤ bound + turns.length
  stages : ∀ i q, qs[i]? = some q →
    ∃ p, (after qs t turns).1[i]? = some p ∧ Stage qs t turns i q p
  past : ∀ front, front <+: turns → ∀ id o, stored (after qs t front).2 id = .ok (some o) →
    o.Readable ∧ o.version ≤ bound + front.length ∧
      ∃ o', stored (after qs t turns).2 id = .ok (some o') ∧ SameOrigin o o'

/-- What one more turn makes of the table and of the call whose turn it is. -/
structure Turned (qs : List Request) (t : Table) (bound : Nat) (turns : List Nat) (i : Nat)
    (q : Request) (p : Script Answered) (t' : Table) (os : List Record) : Prop where
  order : t'.InOrder os
  small : ∀ o ∈ os, o.version ≤ bound + (turns.length + 1)
  stage : Stage qs t (turns ++ [i]) i q p
  moves : ∀ id o, stored (after qs t turns).2 id = .ok (some o) →
    ∃ o', stored t' id = .ok (some o') ∧ Moves qs t turns i id o o' ∧ SameOrigin o o'

lemma SameOrigin.refl (o : Record) : SameOrigin o o := ⟨rfl, rfl, rfl⟩

lemma SameOrigin.trans {o o' o'' : Record} (h : SameOrigin o o') (h' : SameOrigin o' o'') :
    SameOrigin o o'' :=
  ⟨h'.id.trans h.id, h'.address.trans h.address, h'.createdAt.trans h.createdAt⟩

variable {os : List Record} {t' : Table} {id : String} {o x : Record} {bound : Nat}

lemma Table.InOrder.stored_eq (h : t.InOrder os) (id : String) :
    stored t id = .ok ((withId os id).map Record.asRead) :=
  congrArg Prod.fst (h.run_id id)

lemma Table.InOrder.stored_of_mem (h : t.InOrder os) (ho : o ∈ os) :
    stored t o.id = .ok (some o.asRead) := by
  rw [h.stored_eq, h.orderly.withId_of_mem ho]
  rfl

/-- What is read stands in a row. -/
lemma Table.InOrder.exists_row (h : t.InOrder os) (hx : stored t id = .ok (some x)) :
    ∃ o ∈ os, o.id = id ∧ o.asRead = x := by
  rw [h.stored_eq] at hx
  obtain ⟨o, ho, hox⟩ := Option.map_eq_some_iff.mp (Except.ok.inj hx)
  obtain ⟨hom, hid⟩ := withId_eq_some ho
  exact ⟨o, hom, hid, hox⟩

/-- What is read of a record in order can be read again, and its version is no greater than those
of the rows. -/
lemma Table.InOrder.readable_stored (h : t.InOrder os) {n : Nat}
    (hsmall : ∀ o ∈ os, o.version ≤ n) (hx : stored t id = .ok (some x)) :
    x.Readable ∧ x.version ≤ n := by
  obtain ⟨o, ho, -, rfl⟩ := h.exists_row hx
  exact ⟨Table.readable_asRead (h.readable o ho), Nat.le_trans (asRead_version_le o) (hsmall o ho)⟩

lemma SameOrigin.asRead (h : SameOrigin o x) : SameOrigin o.asRead x.asRead := by
  obtain ⟨_, _, ho, -⟩ := o.asRead_congr o rfl rfl
  obtain ⟨_, _, hx, -⟩ := x.asRead_congr x rfl rfl
  rw [ho, hx]
  exact ⟨h.id, h.address, h.createdAt⟩

section

variable (h : Intact qs t bound turns os)
include h

/-- A turn that writes nothing. -/
lemma Intact.still (hstage : Stage qs t (turns ++ [i]) i q p) :
    Turned qs t bound turns i q p (after qs t turns).2 os where
  order := h.order
  small := fun o ho => Nat.le_succ_of_le (h.small o ho)
  stage := hstage
  moves := fun _ o ho => ⟨o, ho, .stays, .refl o⟩

/-- A turn that writes a record. -/
lemma Intact.replaces (ho : o ∈ os) (hx : SameOrigin o x)
    (horder : t'.InOrder (amend o.id (fun _ => x) os))
    (hsmall : x.version ≤ bound + (turns.length + 1))
    (hstage : Stage qs t (turns ++ [i]) i q p)
    (hmoves : Moves qs t turns i o.id o.asRead x.asRead) :
    Turned qs t bound turns i q p t' (amend o.id (fun _ => x) os) where
  order := horder
  small := by
    intro y hy
    obtain ⟨z, hz, rfl⟩ := mem_amend.mp hy
    split
    · exact hsmall
    · exact Nat.le_succ_of_le (h.small z hz)
  stage := hstage
  moves := by
    intro id y hy
    obtain ⟨z, hz, rfl, rfl⟩ := h.order.exists_row hy
    rw [horder.stored_eq, withId_replace hx.id, h.order.orderly.withId_of_mem hz]
    by_cases hid : z.id = o.id
    · obtain rfl := h.order.orderly.eq_of_id hz ho hid
      rw [if_pos rfl]
      exact ⟨x.asRead, rfl, hmoves, hx.asRead⟩
    · rw [if_neg hid]
      exact ⟨z.asRead, rfl, .stays, .refl _⟩

/-- The first turn of a call that makes a record. -/
lemma Intact.creates {s : Stamp} {n : NewRecord} (hplain : (Request.mk s (.create n)).Plain)
    (hstage : Stage qs t (turns ++ [i]) i q p) :
    ∃ os', Turned qs t bound turns i q p
      (Table.exec (.insert (Row.ofRecord (n.toRecord s))) (after qs t turns).2).2 os' := by
  rcases h.order.insert_cases (n := n.toRecord s) rfl (Table.readable_new hplain.2 hplain.1) with
    hsame | horder
  · rw [hsame]
    exact ⟨os, h.still hstage⟩
  · refine ⟨os ++ [n.toRecord s], horder, fun o ho => ?_, hstage, fun id o ho => ?_⟩
    · rcases List.mem_append.mp ho with ho | ho
      · exact Nat.le_succ_of_le (h.small o ho)
      · rw [List.mem_singleton.mp ho]
        exact Nat.le_add_left 1 (bound + turns.length)
    · obtain ⟨y, hy, rfl, rfl⟩ := h.order.exists_row ho
      refine ⟨y.asRead, ?_, .stays, .refl _⟩
      rw [horder.stored_eq, withId_append (h.order.orderly.withId_of_mem hy)]
      rfl

/-- The turn of a call that deletes a record. -/
lemma Intact.deletes (hroom : bound + turns.length + 1 < 2 ^ 63) {s : Stamp}
    (hq : qs[i]? = some ⟨s, .delete id⟩) (hnow : s.now.HasPlainYear)
    (hstage : Stage qs t (turns ++ [i]) i q p) :
    ∃ os', Turned qs t bound turns i q p
      (Table.exec (.markDeleted id (Row.instantText s.now)) (after qs t turns).2).2 os' := by
  by_cases hlive : ∃ o ∈ os, o.id = id ∧ o.isLive = true
  · obtain ⟨o, ho, rfl, hl⟩ := hlive
    have hv := h.small o ho
    obtain ⟨t', hexec, horder⟩ := h.order.markDeleted ho hl hnow (by omega)
    rw [hexec]
    refine ⟨_, h.replaces (x := o.deleted s.now) ho ⟨rfl, rfl, rfl⟩ horder (Nat.succ_le_succ hv)
      hstage ?_⟩
    rw [Table.asRead_deleted s.now (by omega)]
    exact .deleted hq
  · push Not at hlive
    rw [h.order.markDeleted_of_none fun o ho hid => by simpa using hlive o ho hid]
    exact ⟨os, h.still hstage⟩

/-- The first turn of a call. -/
lemma Intact.first_turn
    (hroom : ∀ id, q.op = .delete id → bound + turns.length + 1 < 2 ^ 63)
    (hq : qs[i]? = some q) (hplain : q.Plain) (never : i ∉ turns) :
    ∃ os', Turned qs t bound turns i q
      ((statements q).once Table.exec (after qs t turns).2).1
      ((statements q).once Table.exec (after qs t turns).2).2 os' := by
  have begun : Begun (turns ++ [i]) turns [] i := ⟨rfl, never, List.not_mem_nil⟩
  have hover : ∀ {s op} {a : Answered}, (∀ id v p, op ≠ .update id v p) →
      Stage qs t (turns ++ [i]) i ⟨s, op⟩ (.done a) := fun hno =>
    .finished fun _ id v p _ he _ => absurd (congrArg Request.op he) (hno id v p)
  -- a call that only reads has finished and leaves the table alone
  have hstill : ∀ {s op} {a : Answered}, (∀ id v p, op ≠ .update id v p) →
      (statements ⟨s, op⟩).once Table.exec (after qs t turns).2 = (.done a, (after qs t turns).2) →
      ∃ os', Turned qs t bound turns i ⟨s, op⟩
        ((statements ⟨s, op⟩).once Table.exec (after qs t turns).2).1
        ((statements ⟨s, op⟩).once Table.exec (after qs t turns).2).2 os' := by
    intro s op a hno hrun
    rw [hrun]
    exact ⟨os, h.still (hover hno)⟩
  obtain ⟨s, op⟩ := q
  cases op with
  | findByAddress a => exact hstill (by simp) (once_select _ _ _)
  | findByName name => exact hstill (by simp) (once_select _ _ _)
  | get id => exact hstill (by simp) (once_select _ _ _)
  | list =>
    have hsame := congrArg Prod.snd h.order.keeps.selectLive
    exact hstill (by simp) (Prod.ext rfl hsame)
  | create n => exact h.creates hplain (hover (by simp))
  | delete id => exact h.deletes (hroom id rfl) hq hplain.1 (hover (by simp))
  | update id v p =>
    rcases once_update s id v p (after qs t turns).2 with ⟨e, hrun⟩ | ⟨o, read, version, hrun⟩
    · rw [hrun]
      refine ⟨os, h.still (.finished fun _ _ _ _ _ he ha => ?_)⟩
      cases he
      simp at ha
    · rw [hrun]
      exact ⟨os, h.still (.writing begun read version)⟩
  | touch id u =>
    rcases once_touch s id u (after qs t turns).2 with ⟨a, hrun⟩ | ⟨o, read, later, hrun⟩
    · exact hstill (by simp) hrun
    · rw [hrun]
      exact ⟨os, h.still (.touching begun read later)⟩

/-- What a call has read is still there, and can be written again. -/
lemma Intact.found (hbegun : Begun turns front middle i)
    (hread : stored (after qs t front).2 id = .ok (some x)) :
    x.Readable ∧ x.version + 1 ≤ bound + turns.length ∧
      ∃ o ∈ os, o.id = id ∧ SameOrigin o x := by
  have hprefix : front <+: turns := ⟨i :: middle, hbegun.split.symm⟩
  obtain ⟨hx, hv, o', ho', horigin⟩ := h.past front hprefix id x hread
  obtain ⟨o, ho, hid, rfl⟩ := h.order.exists_row ho'
  refine ⟨hx, ?_, o, ho, hid, ?_⟩
  · have hlen := congrArg List.length hbegun.split
    rw [List.length_append, List.length_cons] at hlen
    omega
  · obtain ⟨_, _, ho, -⟩ := o.asRead_congr o rfl rfl
    rw [ho] at horigin
    exact ⟨horigin.id.symm, horigin.address.symm, horigin.createdAt.symm⟩

/-- The second turn of an update: its record is written over what is there, or it fails. -/
lemma Intact.writes {s : Stamp} {v : Nat} {w : Patch} (hq : qs[i]? = some ⟨s, .update id v w⟩)
    (hplain : (Request.mk s (.update id v w)).Plain)
    (hp : (after qs t turns).1[i]? = some (writing id v w (x.revised s.now w)))
    (begun : Begun turns front middle i) (read : stored (after qs t front).2 id = .ok (some x))
    (version : x.version = v) :
    ∃ os', Turned qs t bound turns i ⟨s, .update id v w⟩
      ((writing id v w (x.revised s.now w)).once Table.exec (after qs t turns).2).1
      ((writing id v w (x.revised s.now w)).once Table.exec (after qs t turns).2).2 os' := by
  obtain ⟨hx, hv, o, ho, rfl, horigin⟩ := h.found begun read
  have hrun : (writing o.id v w (x.revised s.now w)).once Table.exec (after qs t turns).2 =
      (.done ⟨.update o.id v w, (lift (Fault.ofWrite (x.revised s.now w))
        (Table.exec (.replace (Row.ofRecord (x.revised s.now w))) (after qs t turns).2).1).map
          fun _ => x.revised s.now w⟩,
        (Table.exec (.replace (Row.ofRecord (x.revised s.now w))) (after qs t turns).2).2) := rfl
  have hafter := after_turn hp
  obtain ⟨hclash, hfree⟩ := h.order.replace (n := x.revised s.now w) ho horigin.id
    horigin.address horigin.createdAt (Table.readable_apply hx hplain.1 hplain.2)
  cases hc : Medium.table.clash? os (x.revised s.now w) with
  | some u =>
    rw [hclash u hc] at hrun
    rw [hrun]
    refine ⟨os, h.still (.finished fun _ _ _ _ _ he ha => ?_)⟩
    cases he
    simp [lift, Except.map] at ha
  | none =>
    obtain ⟨t', hexec, horder⟩ := hfree hc
    rw [hexec] at hrun
    rw [hrun] at hafter ⊢
    have hanswer : (after qs t (turns ++ [i])).1[i]? =
        some (.done ⟨.update o.id v w, .ok (x.revised s.now w)⟩) := by
      rw [hafter, List.getElem?_set, if_pos rfl, if_pos (List.getElem?_eq_some_iff.mp hp).1]
      rfl
    have hstored : stored (after qs t (turns ++ [i])).2 o.id =
        .ok (some (x.revised s.now w).asRead) := by
      rw [hafter, horder.stored_eq, withId_replace (s := x.revised s.now w) horigin.id, if_pos rfl,
        h.order.orderly.withId_of_mem ho]
      rfl
    have hsmall : (x.revised s.now w).version ≤ bound + (turns.length + 1) :=
      Nat.le_succ_of_le hv
    refine ⟨_, h.replaces (x := x.revised s.now w) ho
      ⟨horigin.id, horigin.address, horigin.createdAt⟩ horder hsmall
      (.finished fun _ _ _ _ _ he ha => ?_) (.written hq begun read version hanswer)⟩
    cases he
    cases ha
    have hsplit : turns ++ [i] = front ++ i :: middle ++ i :: [] := by rw [begun.split]
    refine ⟨x, o.asRead, rfl, .mk ⟨rfl, begun.first, begun.none_since⟩ hsplit read version ?_ ?_⟩
    · rw [← begun.split]
      exact h.order.stored_of_mem ho
    · rw [← begun.split]
      exact hstored

/-- The second turn of a call that writes a sign of life. -/
lemma Intact.sees {s : Stamp} {u : Time.Instant} (hq : qs[i]? = some ⟨s, .touch id u⟩)
    (hu : u.HasPlainYear) (begun : Begun turns front middle i)
    (read : stored (after qs t front).2 id = .ok (some x)) (later : x.lastSeen < u) :
    ∃ os', Turned qs t bound turns i ⟨s, .touch id u⟩
      ((touching id u).once Table.exec (after qs t turns).2).1
      ((touching id u).once Table.exec (after qs t turns).2).2 os' := by
  obtain ⟨-, -, o, ho, rfl, -⟩ := h.found begun read
  obtain ⟨t', hexec, horder⟩ := h.order.setLastSeen ho hu
  have hrun : (touching o.id u).once Table.exec (after qs t turns).2 =
      (.done ⟨.touch o.id u, .ok ()⟩, t') := by
    rw [touching, Program.once_ask, hexec]
    rfl
  rw [hrun]
  refine ⟨_, h.replaces (x := o.seenAt u) ho ⟨rfl, rfl, rfl⟩ horder
    (Nat.le_succ_of_le (h.small o ho)) (.finished fun _ _ _ _ _ he _ => ?_) ?_⟩
  · cases he
  · rw [Record.asRead_seenAt]
    exact .touched hq begun read later

/-- A turn of a call. -/
lemma Intact.turned (hroom : ∀ id, q.op = .delete id → bound + turns.length + 1 < 2 ^ 63)
    (hq : qs[i]? = some q) (hplain : q.Plain) (hp : (after qs t turns).1[i]? = some p)
    (hstage : Stage qs t turns i q p) :
    ∃ os', Turned qs t bound turns i q (p.once Table.exec (after qs t turns).2).1
      (p.once Table.exec (after qs t turns).2).2 os' := by
  cases hstage with
  | waiting never => exact h.first_turn hroom hq hplain never
  | writing begun read version => exact h.writes hq hplain hp begun read version
  | touching begun read later => exact h.sees hq hplain.2 begun read later
  | finished wrote =>
    exact ⟨os, h.still (.finished fun s id v p r hq ha =>
      let ⟨x, c, hr, hwrote⟩ := wrote s id v p r hq ha
      ⟨x, c, hr, hwrote.later i⟩)⟩

/-- What is kept is kept with one more turn. -/
lemma Intact.extend {os' : List Record}
    (horder : (after qs t (turns ++ [i])).2.InOrder os')
    (hsmall : ∀ o ∈ os', o.version ≤ bound + (turns.length + 1))
    (hstages : ∀ j q, qs[j]? = some q → ∃ p, (after qs t (turns ++ [i])).1[j]? = some p ∧
      Stage qs t (turns ++ [i]) j q p)
    (hmoves : ∀ id o, stored (after qs t turns).2 id = .ok (some o) →
      ∃ o', stored (after qs t (turns ++ [i])).2 id = .ok (some o') ∧ SameOrigin o o') :
    Intact qs t bound (turns ++ [i]) os' where
  order := horder
  small := by
    rw [List.length_append]
    exact hsmall
  stages := hstages
  past := by
    intro front hfront id o ho
    rcases List.prefix_concat_iff.mp hfront with rfl | hfront
    · rw [List.length_append, List.length_singleton]
      obtain ⟨hread, hv⟩ := horder.readable_stored hsmall ho
      exact ⟨hread, hv, o, ho, .refl o⟩
    · obtain ⟨hread, hv, x, hx, horigin⟩ := h.past front hfront id o ho
      obtain ⟨o', ho', horigin'⟩ := hmoves id x hx
      exact ⟨hread, hv, o', ho', horigin.trans horigin'⟩

/-- **One more turn** leaves everything intact, and moves a record as its call has it. -/
theorem Intact.step
    (hroom : ∀ q ∈ qs, ∀ id, q.op = .delete id → bound + turns.length + 1 < 2 ^ 63)
    (hplain : ∀ q ∈ qs, q.Plain) (i : Nat) : (∃ os', Intact qs t bound (turns ++ [i]) os') ∧
      ∀ id o, stored (after qs t turns).2 id = .ok (some o) →
        ∃ o', stored (after qs t (turns ++ [i])).2 id = .ok (some o') ∧
          Moves qs t turns i id o o' := by
  cases hq : qs[i]? with
  | none =>
    have hidle : after qs t (turns ++ [i]) = after qs t turns := after_idle hq
    refine ⟨⟨os, h.extend ?_ (fun o ho => Nat.le_succ_of_le (h.small o ho)) ?_ ?_⟩, ?_⟩
    · rw [hidle]
      exact h.order
    · intro j q' hj
      have hne : j ≠ i := by
        rintro rfl
        rw [hq] at hj
        cases hj
      obtain ⟨p, hp, hstage⟩ := h.stages j q' hj
      rw [hidle]
      exact ⟨p, hp, hstage.later hne⟩
    · rw [hidle]
      exact fun id o ho => ⟨o, ho, .refl o⟩
    · rw [hidle]
      exact fun id o ho => ⟨o, ho, .stays⟩
  | some q =>
    obtain ⟨p, hp, hstage⟩ := h.stages i q hq
    have hmem := List.mem_of_getElem? hq
    obtain ⟨os', hturned⟩ := h.turned (hroom q hmem) hq (hplain q hmem) hp hstage
    have hafter := after_turn hp
    refine ⟨⟨os', h.extend ?_ hturned.small ?_ ?_⟩, ?_⟩
    · rw [hafter]
      exact hturned.order
    · intro j q' hj
      rw [hafter, List.getElem?_set]
      by_cases hij : i = j
      · subst hij
        obtain rfl := Option.some.inj (hq.symm.trans hj)
        rw [if_pos rfl, if_pos (List.getElem?_eq_some_iff.mp hp).1]
        exact ⟨_, rfl, hturned.stage⟩
      · obtain ⟨p', hp', hstage'⟩ := h.stages j q' hj
        rw [if_neg hij]
        exact ⟨p', hp', hstage'.later fun he => hij he.symm⟩
    · rw [hafter]
      exact fun id o ho =>
        let ⟨o', ho', _, horigin⟩ := hturned.moves id o ho
        ⟨o', ho', horigin⟩
    · rw [hafter]
      exact fun id o ho =>
        let ⟨o', ho', hmoves, _⟩ := hturned.moves id o ho
        ⟨o', ho', hmoves⟩

end

/-- **Everything is intact after all turns.** -/
theorem intact (horder : t.InOrder os) (hsmall : ∀ o ∈ os, o.version ≤ bound)
    (hplain : ∀ q ∈ qs, q.Plain) (turns : List Nat)
    (hroom : ∀ q ∈ qs, ∀ id, q.op = .delete id → bound + turns.length < 2 ^ 63) :
    ∃ os', Intact qs t bound turns os' := by
  induction turns using List.reverseRecOn with
  | nil =>
    refine ⟨os, horder, hsmall, fun i q hq => ?_, fun front hfront id o ho => ?_⟩
    · refine ⟨statements q, ?_, .waiting List.not_mem_nil⟩
      rw [after, List.map_nil, Program.interleave, List.getElem?_map, hq]
      rfl
    · obtain rfl := List.prefix_nil.mp hfront
      obtain ⟨hread, hv⟩ := horder.readable_stored hsmall ho
      exact ⟨hread, hv, o, ho, .refl o⟩
  | append_singleton turns i ih =>
    simp only [List.length_append, List.length_singleton] at hroom
    obtain ⟨os', h⟩ := ih fun q hq id hid => Nat.lt_of_succ_lt (hroom q hq id hid)
    exact (h.step hroom hplain i).1

end

end NodeWatch.Store.Sql
