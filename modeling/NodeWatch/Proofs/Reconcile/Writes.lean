import NodeWatch.Proofs.Reconcile.Session
import NodeWatch.Proofs.Store.Stock

/-!
What a reconciliation writes to while others use the store.

It writes only to the record it has read, at the version it has read, so that a record which
somebody else has deleted in between is safe from it. But after a write that has lost it reads the
record under its identity again, deleted or not.
-/

namespace NodeWatch.Reconcile

open Store

/-! ### A reconciliation among others -/

/-- A call that has been made: the store before it, the time and the answer. -/
structure Made where
  before : Repository
  now : Time.Instant
  op : Operation
  answer : op.Answer

/-- A reconciliation on a store that others use, with the calls that it has made itself. -/
structure Shared where
  program : Session (Except Error Outcome)
  store : Repository
  calls : List Made := []

/-- The reconciliation makes its next call, or somebody else makes one. -/
inductive Turn where
  | own (now : Time.Instant)
  | other (now : Time.Instant) (op : Operation)

namespace Shared

def turn (x : Shared) : Turn → Shared
  | .own now =>
    match x.program with
    | .done _ => x
    | .ask q next =>
      { program := next (x.store.step now q).1
        store := (x.store.step now q).2
        calls := x.calls ++ [⟨x.store, now, q, (x.store.step now q).1⟩] }
  | .other now op => { x with store := (x.store.step now op).2 }

def after (x : Shared) (turns : List Turn) : Shared := turns.foldl turn x

lemma after_concat (x : Shared) (turns : List Turn) (t : Turn) :
    x.after (turns ++ [t]) = (x.after turns).turn t := by
  rw [after, List.foldl_append]
  rfl

end Shared

/-! ### What is said of its calls -/

/-- The last of the calls has read a record under its identity and has been told that it is
deleted. -/
def ToldDeleted (calls : List Made) : Prop :=
  ∃ r now id x, calls.getLast? = some ⟨r, now, .get id, .ok (some x)⟩ ∧ x.isLive = false

/-- What an update that has succeeded after the calls has found: a record of the address at the
version that it expects. It is the live one unless its deletion had been told. -/
structure Finds (a : Net.Address) (calls : List Made) (r : Repository) (now : Time.Instant)
    (id : String) (v : Nat) (old : Record) : Prop where
  there : (r.step now (.get id)).1 = .ok (some old)
  version : old.version = v
  address : old.address = a
  live : old.isLive = false ↔ ToldDeleted calls
  found : old.isLive = true → (r.step now (.findByAddress a)).1 = .ok (some old)

/-- If the call is an update that has succeeded, it has found what it should. -/
def Justified (a : Net.Address) (calls : List Made) (c : Made) : Prop :=
  ∀ r now id v p new, c = ⟨r, now, .update id v p, .ok new⟩ →
    ∃ old, Finds a calls r now id v old

/-- The last of the calls is an update that has succeeded. -/
def Written (calls : List Made) : Prop :=
  ∃ r now id v p new, calls.getLast? = some ⟨r, now, .update id v p, .ok new⟩

/-! ### Copies -/

/-- The copy of a record: as long as the version is the same, it is known whether the record is
live. -/
def Copies (rs : List Record) (r : Record) : Prop :=
  ∃ y ∈ rs, y.id = r.id ∧ y.address = r.address ∧ r.version ≤ y.version ∧
    (y.version = r.version → y.isLive = r.isLive)

section

variable {m : Medium} {rs rs' : List Record} {r y : Record} {wrote : String → Prop}

lemma Copies.next (h : Copies rs r)
    (kept : ∀ x ∈ rs, ∃ x' ∈ rs', x.Grows (wrote x.id) x') : Copies rs' r := by
  obtain ⟨y, hy, hid, ha, hle, hlive⟩ := h
  obtain ⟨y', hy', hgrows⟩ := kept y hy
  refine ⟨y', hy', hgrows.id.trans hid, hgrows.address.trans ha, ?_⟩
  by_cases hw : wrote y.id
  · have := hgrows.version hw
    exact ⟨by omega, fun he => by omega⟩
  · obtain ⟨t, rfl⟩ := hgrows.seen hw
    exact ⟨hle, hlive⟩

lemma Copies.of_tell (hy : y ∈ rs) (ht : m.tell y = .ok r)
    (hsmall : m = .table → y.version < 2 ^ 63) : Copies rs r := by
  obtain rfl := Medium.tell_eq_ok ht
  have hversion : (m.read y).version = y.version := Medium.read_version hsmall
  refine ⟨y, hy, (m.read_id y).symm, (m.read_address y).symm, Nat.le_of_eq hversion, fun _ => ?_⟩
  exact (m.read_isLive y).symm

end

/-! ### Where it may stand -/

/-- Where the reconciliation of an event that tells that a node is there may stand. -/
inductive Stage (e : Event) (suffix : List Char) (calls : List Made) (rs : List Record) :
    Session (Except Error Outcome) → Prop where
  | starts : Stage e suffix calls rs (reconcile e suffix)
  | names (names : List (List Char)) : Stage e suffix calls rs (create e names)
  | refinds : Stage e suffix calls rs (refind e)
  | knows {left : Nat} {r : Record} (address : r.address = e.node.address) (copy : Copies rs r)
    (told : r.isLive = false ↔ ToldDeleted calls) :
    Stage e suffix calls rs (closing e (refresh e.node left r))
  | rereads {left : Nat} {r : Record} (address : r.address = e.node.address)
    (copy : Copies rs r) : Stage e suffix calls rs (closing e (reread e.node left r))
  | ends {a : Except Error Outcome}
    (written : a = .ok .updated ∨ a = .ok .recovered → Written calls) :
    Stage e suffix calls rs (.done a)

section

variable {e : Event} {suffix : List Char} {calls : List Made} {s : Stock} {rs rs' : List Record}
  {p : Session (Except Error Outcome)} {now : Time.Instant} {n : Nat} {wrote : String → Prop}
  {r : Record}

/-- A call of somebody else does not matter. -/
lemma Stage.next (h : Stage e suffix calls rs p)
    (kept : ∀ x ∈ rs, ∃ x' ∈ rs', x.Grows (wrote x.id) x') : Stage e suffix calls rs' p := by
  cases h with
  | starts => exact .starts
  | names names => exact .names names
  | refinds => exact .refinds
  | knows address copy told => exact .knows address (copy.next kept) told
  | rereads address copy => exact .rereads address (copy.next kept)
  | ends written => exact .ends written

lemma Stage.fails (x : Error) : Stage e suffix calls rs (.done (.error x)) :=
  .ends fun h => by rcases h with h | h <;> cases h

/-- What the program does with its next call. -/
def Advances (e : Event) (suffix : List Char) (calls : List Made) (s : Stock)
    (now : Time.Instant) : Session (Except Error Outcome) → Prop
  | .done _ => True
  | .ask q next =>
    Stage e suffix (calls ++ [⟨s.store, now, q, (s.step now q).1⟩]) (s.step now q).2.records
      (next (s.step now q).1) ∧
    Justified e.node.address calls ⟨s.store, now, q, (s.step now q).1⟩

lemma justified_of_not_update {a : Net.Address} {c : Made} (h : ∀ id v p, c.op ≠ .update id v p) :
    Justified a calls c := by
  rintro r now id v p new rfl
  exact absurd rfl (h id v p)

lemma not_toldDeleted_concat {c : Made} (h : ∀ id, c.op ≠ .get id) :
    ¬ ToldDeleted (calls ++ [c]) := by
  rintro ⟨r, now, id, x, hlast, -⟩
  rw [List.getLast?_concat] at hlast
  obtain rfl := Option.some.inj hlast
  exact h id rfl

/-- The store is in order, and no record has been written often. -/
structure Serves (s : Stock) (n : Nat) : Prop where
  sound : s.Sound
  young : s.Young n
  room : s.medium = .table → n < 2 ^ 63

variable (hs : Serves s n)
include hs

lemma Serves.small : s.medium = .table → ∀ x ∈ s.records, x.version < 2 ^ 63 :=
  fun hm x hx => Nat.lt_of_le_of_lt (hs.young x hx) (hs.room hm)

/-- A live record is found at the address. -/
lemma Serves.knows_found {left : Nat}
    (h : s.medium.tell? (liveAt s.records e.node.address) = .ok (some r)) {c : Made}
    (hc : ∀ id, c.op ≠ .get id) :
    Stage e suffix (calls ++ [c]) s.records (closing e (refresh e.node left r)) := by
  obtain ⟨y, hy, ht⟩ := Medium.tell?_eq_ok_some h
  obtain ⟨hm, hl, ha⟩ := liveAt_eq_some hy
  have hcopy := Copies.of_tell hm ht fun htable => hs.small htable y hm
  obtain rfl := Medium.tell_eq_ok ht
  refine .knows (by rw [Medium.read_address, ha]) hcopy ?_
  rw [Medium.read_isLive, hl]
  simpa using not_toldDeleted_concat hc

/-- The record of the address is looked for. -/
lemma Serves.advances_find
    {next : (Operation.findByAddress e.node.address).Answer → Session (Except Error Outcome)}
    (fails : ∀ calls x, Stage e suffix calls s.records (next (.error x)))
    (misses : ∀ calls, Stage e suffix calls s.records (next (.ok none)))
    (finds : ∀ calls r, Stage e suffix calls s.records (closing e (refresh e.node attempts r)) →
      Stage e suffix calls s.records (next (.ok (some r)))) :
    Advances e suffix calls s now (.ask (.findByAddress e.node.address) next) := by
  refine ⟨?_, justified_of_not_update fun id v p => by simp⟩
  have hanswer : (s.step now (.findByAddress e.node.address)).1 =
      s.medium.tell? (liveAt s.records e.node.address) := rfl
  rw [hanswer]
  cases hfound : s.medium.tell? (liveAt s.records e.node.address) with
  | error x => exact fails _ x
  | ok found =>
    cases found with
    | none => exact misses _
    | some r => exact finds _ r (hs.knows_found hfound (by simp))

lemma Serves.advances_starts (hk : Seen e) :
    Advances e suffix calls s now (reconcile e suffix) := by
  rw [reconcile_seen hk]
  exact hs.advances_find (fun _ _ => .fails _) (fun _ => .names _) fun _ _ => id

lemma Serves.advances_refinds : Advances e suffix calls s now (refind e) := by
  rw [refind]
  exact hs.advances_find (fun _ _ => .fails _) (fun _ => .fails _) fun _ _ => id

omit hs in
lemma advances_names (names : List (List Char)) :
    Advances e suffix calls s now (create e names) := by
  cases names with
  | nil => trivial
  | cons name names =>
    rw [create_cons]
    refine ⟨?_, justified_of_not_update fun id v p => by simp⟩
    generalize (s.step now (.create (newRecord e.node name))).1 = a
    rcases a with x | r
    · rcases x with _ | _ | ⟨⟨_ | _ | _⟩, _⟩ | _ | _ | _ | _ | _
      case duplicate.name => exact .names _
      case duplicate.ip => exact .refinds
      all_goals exact .fails _
    · exact .ends fun h => by rcases h with h | h <;> cases h

/-- The record is read again under its identity. -/
lemma Serves.advances_rereads {left : Nat} (address : r.address = e.node.address)
    (copy : Copies s.records r) :
    Advances e suffix calls s now (closing e (reread e.node left r)) := by
  rw [reread, closing_ask]
  refine ⟨?_, justified_of_not_update fun id v p => by simp⟩
  have hanswer : (s.step now (.get r.id)).1 = s.medium.tell? (withId s.records r.id) := rfl
  rw [hanswer]
  cases hfound : s.medium.tell? (withId s.records r.id) with
  | error x => exact .fails _
  | ok found =>
    cases found with
    | none => exact .fails _
    | some told =>
      obtain ⟨x, hx, ht⟩ := Medium.tell?_eq_ok_some hfound
      obtain ⟨hm, hid⟩ := withId_eq_some hx
      have hcopy := Copies.of_tell hm ht fun htable => hs.small htable x hm
      obtain ⟨y, hy, hyid, hya, -⟩ := copy
      obtain rfl := hs.sound.orderly.eq_of_id hy hm (hyid.trans hid.symm)
      refine .knows ?_ hcopy ?_
      · rw [Medium.tell_eq_ok ht, Medium.read_address, hya, address]
      · constructor
        · intro hdead
          exact ⟨_, _, _, told, List.getLast?_concat, hdead⟩
        · rintro ⟨r', now', id, z, hlast, hdead⟩
          rw [List.getLast?_concat] at hlast
          cases hlast
          exact hdead

/-- An update that succeeds has found the record as it was read. -/
lemma Serves.finds (now : Time.Instant) (p : Patch) (address : r.address = e.node.address)
    (copy : Copies s.records r) (told : r.isLive = false ↔ ToldDeleted calls) (new : Record)
    (hok : (s.step now (.update r.id r.version p)).1 = .ok new) :
    ∃ old, Finds e.node.address calls s.store now r.id r.version old := by
  have hmakes := s.makes_step now (.update r.id r.version p)
  rw [hok] at hmakes
  obtain ⟨x, old, hx, hreads, hversion, -⟩ := hmakes.revised
  obtain ⟨hm, hid⟩ := withId_eq_some hx
  obtain ⟨y, hy, hyid, hya, -, hlive⟩ := copy
  obtain rfl := hs.sound.orderly.eq_of_id hy hm (hyid.trans hid.symm)
  have hold := Medium.tell_eq_ok hreads
  have hsame : y.isLive = r.isLive := by
    refine hlive (Eq.trans ?_ hversion)
    rw [hold, Medium.read_version fun htable => hs.small htable y hm]
  have holdLive : old.isLive = y.isLive := by rw [hold, Medium.read_isLive]
  have holdAddress : old.address = e.node.address := by
    rw [hold, Medium.read_address, hya, address]
  refine ⟨old, ?_, hversion, holdAddress, by rw [holdLive, hsame, told], fun hl => ?_⟩
  · rw [hs.sound.step_get, hx, Medium.tell?_ok hreads]
    rfl
  · rw [holdLive] at hl
    rw [hs.sound.step_find, hs.sound.orderly.liveAt_of_mem hm hl (hya.trans address),
      Medium.tell?_ok hreads]
    rfl

/-- A write is made, or a sign of life. -/
lemma Serves.advances_knows {left : Nat} (address : r.address = e.node.address)
    (copy : Copies s.records r) (told : r.isLive = false ↔ ToldDeleted calls) :
    Advances e suffix calls s now (closing e (refresh e.node left r)) := by
  cases left with
  | zero => trivial
  | succ left =>
    cases hp : (refreshPatch r e.node).isEmpty with
    | true =>
      rw [refresh_of_isEmpty hp, closing_ask]
      refine ⟨?_, justified_of_not_update fun id v p => by simp⟩
      cases (s.step now (.touch r.id e.node.lastSeen)).1 with
      | error x => exact .fails _
      | ok u => exact .ends fun h => by rcases h with h | h <;> cases h
    | false =>
      rw [refresh_of_changes hp, closing_ask]
      have hkept := (s.makes_step now (.update r.id r.version (refreshPatch r e.node))).kept
        hs.sound.orderly hs.small
      have hcopy := copy.next hkept
      have hfinds := hs.finds now (refreshPatch r e.node) address copy told
      refine ⟨?_, ?_⟩
      · generalize (s.step now (.update r.id r.version (refreshPatch r e.node))).1 = a
        rcases a with x | new
        · cases x with
          | conflict id v w =>
            simp only
            split
            · exact .fails _
            · exact .rereads address hcopy
          | _ => exact .fails _
        · exact .ends fun _ => ⟨_, _, _, _, _, _, List.getLast?_concat⟩
      · generalize (s.step now (.update r.id r.version (refreshPatch r e.node))).1 = a at hfinds
        rintro r' now' id v p new hc
        cases hc
        exact hfinds new rfl

end

/-- An outcome that tells of an update comes right after it. -/
lemma Stage.written {e : Event} {suffix : List Char} {calls : List Made} {rs : List Record}
    {p : Session (Except Error Outcome)} {o : Outcome} (h : Stage e suffix calls rs p)
    (hk : Seen e) (ho : o = .updated ∨ o = .recovered) (hp : p = .done (.ok o)) :
    Written calls := by
  cases h with
  | starts =>
    rw [reconcile_seen hk] at hp
    cases hp
  | names names =>
    cases names with
    | nil => cases hp
    | cons name names =>
      rw [create_cons] at hp
      cases hp
  | refinds => cases hp
  | @knows left r address copy told =>
    cases left with
    | zero => cases hp
    | succ left =>
      cases hfull : (refreshPatch r e.node).isEmpty with
      | true =>
        rw [refresh_of_isEmpty hfull] at hp
        cases hp
      | false =>
        rw [refresh_of_changes hfull] at hp
        cases hp
  | rereads address copy => cases hp
  | ends written =>
    obtain rfl := Program.done.inj hp
    exact written (ho.imp (congrArg _) (congrArg _))

/-! ### Turn by turn -/

/-- Where all stands after `n` turns. -/
structure Goes (e : Event) (suffix : List Char) (m : Medium) (n : Nat) (x : Shared) (s : Stock) :
    Prop where
  store : x.store = s.store
  medium : s.medium = m
  sound : s.Sound
  young : s.Young n
  stage : Stage e suffix x.calls s.records x.program
  justified : ∀ front c back, x.calls = front ++ c :: back → Justified e.node.address front c

section

variable {e : Event} {suffix : List Char} {m : Medium} {n : Nat} {x : Shared} {s : Stock}

lemma Serves.advances (hs : Serves s n) (hk : Seen e)
    (h : Stage e suffix x.calls s.records x.program) (now : Time.Instant) :
    Advances e suffix x.calls s now x.program := by
  revert h
  generalize x.program = p
  intro h
  cases h with
  | starts => exact hs.advances_starts hk
  | names names => exact advances_names names
  | refinds => exact hs.advances_refinds
  | knows address copy told => exact hs.advances_knows address copy told
  | rereads address copy => exact hs.advances_rereads address copy
  | ends written => trivial

/-- Whoever makes the next call. -/
lemma Goes.turn (h : Goes e suffix m n x s) (hk : Seen e) (room : m = .table → n + 1 < 2 ^ 63)
    (t : Turn) : ∃ s', Goes e suffix m (n + 1) (x.turn t) s' := by
  obtain ⟨hstore, rfl, hsound, hyoung, hstage, hjust⟩ := h
  have hroom : s.medium = .table → n < 2 ^ 63 := fun hm => Nat.lt_of_succ_lt (room hm)
  have hs : Serves s n := ⟨hsound, hyoung, hroom⟩
  have hnext : ∀ now op, s.store.step now op = ((s.step now op).1, (s.step now op).2.store) :=
    fun now op => Stock.store_step hsound (hyoung.admits hsound room now op)
  cases t with
  | other now op =>
    have hadm := hyoung.admits hsound room now op
    have hkept := (s.makes_step now op).kept hsound.orderly hs.small
    refine ⟨(s.step now op).2, ?_, rfl, hsound.step hadm, hyoung.step hsound hadm hroom,
      hstage.next hkept, hjust⟩
    rw [Shared.turn, hstore, hnext]
  | own now =>
    have hadvances := hs.advances hk hstage now
    cases hp : x.program with
    | done a =>
      have hsame : x.turn (.own now) = x := by simp only [Shared.turn, hp]
      rw [hsame]
      exact ⟨s, hstore, rfl, hsound, fun r hr => Nat.le_succ_of_le (hyoung r hr), hstage, hjust⟩
    | ask q next =>
      rw [hp] at hadvances
      obtain ⟨hstage', hlast⟩ := hadvances
      have hadm := hyoung.admits hsound room now q
      have hturn : x.turn (.own now) = ⟨next (s.step now q).1, (s.step now q).2.store,
          x.calls ++ [⟨s.store, now, q, (s.step now q).1⟩]⟩ := by
        simp only [Shared.turn, hp, hstore, hnext]
      rw [hturn]
      refine ⟨(s.step now q).2, rfl, rfl, hsound.step hadm, hyoung.step hsound hadm hroom,
        hstage', fun front c back hsplit => ?_⟩
      rcases List.eq_nil_or_concat back with rfl | ⟨init, y, rfl⟩
      · obtain ⟨rfl, hc⟩ := List.append_inj' hsplit rfl
        obtain rfl := List.singleton_inj.mp hc
        exact hlast
      · rw [List.concat_eq_append, ← List.cons_append, ← List.append_assoc] at hsplit
        exact hjust front c init (List.append_inj' hsplit rfl).1

lemma goes_after {r : Repository} (hk : Seen e) (suffix : List Char) (hr : m.Starts r)
    (turns : List Turn) (room : m = .table → turns.length < 2 ^ 63) :
    ∃ s, Goes e suffix m turns.length
      (Shared.after { program := reconcile e suffix, store := r } turns) s := by
  induction turns using List.reverseRecOn with
  | nil =>
    obtain ⟨s, hs, hm, hsound, hyoung⟩ := hr.exists_stock
    exact ⟨s, hs, hm, hsound, hyoung, .starts, fun front c back h => by cases front <;> cases h⟩
  | append_singleton turns t ih =>
    rw [List.length_append, List.length_singleton] at room ⊢
    obtain ⟨s, hs⟩ := ih fun hm => Nat.lt_of_succ_lt (room hm)
    rw [Shared.after_concat]
    exact hs.turn hk room t

/-- **What a reconciliation writes to.** However its calls and any calls of others take turns on a
store that starts empty, each of its updates that succeeds finds a record of the address of the
event at the version it was told; that record is the live one, unless the reconciliation has read
it again just before and has been told that it is deleted. An outcome that tells of an update means
that its last call was such an update. -/
theorem updates_among_others {r : Repository} (hk : Seen e) (suffix : List Char) (hr : m.Starts r)
    (turns : List Turn) (room : m = .table → turns.length < 2 ^ 63) {x : Shared}
    (hx : x = Shared.after { program := reconcile e suffix, store := r } turns) :
    (∀ front c back, x.calls = front ++ c :: back → Justified e.node.address front c) ∧
      ∀ o, o = .updated ∨ o = .recovered → x.program = .done (.ok o) → Written x.calls := by
  obtain ⟨s, hs⟩ := goes_after hk suffix hr turns room
  rw [← hx] at hs
  refine ⟨hs.justified, fun o ho hdone => ?_⟩
  exact hs.stage.written hk ho hdone

end

/-! ### A record that is deleted between two writes -/

/-- An event. -/
def sighting : Event :=
  ⟨.discovered,
    (Observation.bare "a" "pi" (.v4 10 0 0 1) 9091 default).withAttribute "arch" "arm64"⟩

/-- Somebody puts the node on record. The reconciliation finds it, and somebody deletes it. It is
read again under its identity and updated. -/
def overtaken : List Turn :=
  [.other default (.create { name := "pi", address := .v4 10 0 0 1, lastSeen := default }),
   .own default, .other default (.delete "#1"), .own default, .own default, .own default]

def deletedMeanwhile : Shared :=
  Shared.after { program := reconcile sighting [], store := .inMemory } overtaken

theorem updates_among_others_for_deletion : Seen sighting ∧ (Medium.memory .same).Starts .inMemory ∧
    (∀ front c back, deletedMeanwhile.calls = front ++ c :: back →
      Justified sighting.node.address front c) ∧
    ∀ o, o = .updated ∨ o = .recovered → deletedMeanwhile.program = .done (.ok o) →
      Written deletedMeanwhile.calls := by
  have hseen : Seen sighting := by
    unfold Seen
    decide
  have hroom : Medium.memory .same = .table → overtaken.length < 2 ^ 63 := nofun
  exact ⟨hseen, .memory _, updates_among_others hseen [] (.memory _) overtaken hroom rfl⟩

/-- **A deleted record is updated**, and that is what is told of it, though there is no live record
at the address. -/
theorem deleted_record_updated : deletedMeanwhile.program = .done (.ok .updated) ∧
    ∃ r now v p new old,
      deletedMeanwhile.calls.getLast? = some ⟨r, now, .update "#1" v p, .ok new⟩ ∧
      (r.step now (.get "#1")).1 = .ok (some old) ∧ old.isLive = false ∧
      (r.step now (.findByAddress sighting.node.address)).1 = .ok none :=
  ⟨rfl, _, _, _, _, _, _, rfl, rfl, rfl, rfl⟩

end NodeWatch.Reconcile
