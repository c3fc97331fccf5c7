import NodeWatch.Proofs.Reconcile.Waiting
import NodeWatch.Proofs.Store.Refinement

/-!
Reconciliations that take turns do what they would do one after the other.

The order is that of the decisive calls. Whatever programs do between their decisive call and their
end is to write signs of life, so that the ledger ahead of all of them is at every moment the ledger
of those that have decided, run one after the other.
-/

namespace NodeWatch.Reconcile

open Store

/-- What a reconciliation is bound to give, if it has made its decisive call. -/
def decided? : Session (Except Error Outcome) → Option (Except Error Outcome)
  | .done x => some x
  | .ask (.touch _ _) _ => some (.ok .refreshed)
  | .ask _ _ => none

/-- Where one reconciliation among others stands. -/
inductive Standing (n : Nat) (l : Ledger) (c : Event × List Char) :
    Session (Except Error Outcome) → Prop where
  | waits {p} (waits : Waits n l c.1 c.2 p) : Standing n l c p
  | ends {o p} (ends : Ends l c.1 o p) : Standing n l c p
  | failed (x : Error) : Standing n l c (.done (.error x))

/-- Reconciliations at work on one ledger. -/
structure Company (m : Medium) (calls : List (Event × List Char)) (n : Nat)
    (ps : List (Session (Except Error Outcome))) (l : Ledger) : Prop where
  sound : l.Sound
  medium : l.medium = m
  asks : ∀ p ∈ ps, p.Asks (Operation.Plain m)
  length : ps.length = calls.length
  standing : ∀ (i : Nat) c p, calls[i]? = some c → ps[i]? = some p → Standing n l c p

/-- What a turn means to the order: nothing yet, the decisive call, or what comes after it. -/
inductive Effect (l : Ledger) (c : Event × List Char) (now : Time.Instant) :
    Session (Except Error Outcome) → Session (Except Error Outcome) → Ledger → Prop where
  | waits {p p'} (before : decided? p = none) (after : ∀ o, decided? p' ≠ some (.ok o)) :
    Effect l c now p p' l
  | decides {p p' o l'} (before : decided? p = none) (after : decided? p' = some (.ok o))
    (effect : ∀ ps : List (Session (Except Error Outcome)), Founded l ps →
      alone now c.1 c.2 (l.ahead ps) = (.ok o, (l'.ahead ps).after p')) : Effect l c now p p' l'
  | ends {p p' x} (before : decided? p = some x) (after : decided? p' = some x)
    (through : pending? p' = none) : Effect l c now p p' (l.after p)

variable {m : Medium} {n : Nat} {l l' : Ledger} {e : Event} {suffix : List Char}
  {now : Time.Instant} {o : Outcome} {p : Session (Except Error Outcome)}
  {c : Event × List Char} {calls : List (Event × List Char)}
  {ps : List (Session (Except Error Outcome))}

/-! ### Before and after the decisive call -/

lemma pending?_of_decided? (h : ∀ o, decided? p ≠ some (.ok o)) : pending? p = none := by
  rcases p with x | ⟨⟨⟩, next⟩
  case ask.touch => exact absurd rfl (h .refreshed)
  all_goals rfl

lemma pending?_of_undecided (h : decided? p = none) : pending? p = none :=
  pending?_of_decided? fun o ho => by rw [h] at ho; simp at ho

lemma Waits.undecided (h : Waits n l e suffix p) : decided? p = none := by
  cases h with
  | starts seen => rw [reconcile_seen seen]; rfl
  | changes seen full known => rw [refresh_of_changes full]; rfl
  | rereads seen known => rfl
  | names seen all taken => rw [create_cons]; rfl
  | refinds seen known => rfl
  | finds lost => rw [markUnknown_succ]; rfl
  | marks lost status known => rfl

lemma Ends.decided (h : Ends l e o p) : decided? p = some (.ok o) := by
  cases h <;> rfl

lemma Standing.advance (h : Standing n l c p) (hl : l.Advances l') (hs : l'.Sound) :
    Standing (n + 1) l' c p := by
  cases h with
  | waits waits => exact .waits (waits.advance hl hs)
  | ends ends => exact .ends (ends.advance hl)
  | failed x => exact .failed x

lemma Ends.once (h : Ends l e o p) (hs : l.Sound) :
    p.once (Ledger.step now) l = (.done (.ok o), l.after p) := by
  cases h with
  | finished o => rfl
  | @touches id known t =>
    obtain ⟨r, hr, rfl⟩ := known
    have hpending : pending? (touching e r.id t) = some (r.id, t) := rfl
    rw [Ledger.after_of_some hpending, touching, Program.once_ask,
      Ledger.step_touch (hs.orderly.withId_of_mem hr)]

lemma Standing.once (h : Standing n l c p) (hs : l.Sound) (hn : l.medium = .table → n < 2 ^ 63)
    (hadv : l.Advances (p.once (Ledger.step now) l).2)
    (hs' : (p.once (Ledger.step now) l).2.Sound) :
    Standing (n + 1) (p.once (Ledger.step now) l).2 c (p.once (Ledger.step now) l).1 ∧
      Effect l c now p (p.once (Ledger.step now) l).1 (p.once (Ledger.step now) l).2 := by
  cases h with
  | waits waits =>
    have hmoves := waits.once hs now hn
    generalize (p.once (Ledger.step now) l).1 = p' at *
    generalize (p.once (Ledger.step now) l).2 = l' at *
    cases hmoves with
    | waits waits' =>
      exact ⟨.waits (waits'.advance hadv hs'),
        .waits waits.undecided fun o ho => by rw [waits'.undecided] at ho; simp at ho⟩
    | fails x => exact ⟨.failed x, .waits waits.undecided fun o ho => by simp [decided?] at ho⟩
    | settles ends effect => exact ⟨.ends ends, .decides waits.undecided ends.decided effect⟩
  | ends ends =>
    rw [ends.once hs]
    exact ⟨.ends (.finished _), .ends ends.decided rfl rfl⟩
  | failed x => exact ⟨.failed x, .ends rfl rfl rfl⟩

/-! ### One turn -/

lemma asks_once (now : Time.Instant) (hs : l.Sound) (h : p.Asks (Operation.Plain l.medium)) :
    (p.once (Ledger.step now) l).2.Sound ∧ l.Advances (p.once (Ledger.step now) l).2 := by
  cases h with
  | done x => exact ⟨hs, .rfl⟩
  | ask here later => exact ⟨hs.step now here, hs.advances now here⟩

lemma Company.founded (h : Company m calls n ps l) : Founded l ps := by
  intro p hp id t hpend
  obtain ⟨i, hi⟩ := List.getElem?_of_mem hp
  have hlt : i < calls.length := by
    rw [← h.length]
    exact (List.getElem?_eq_some_iff.mp hi).1
  cases h.standing i calls[i] p (List.getElem?_eq_getElem hlt) hi with
  | waits waits =>
    rw [pending?_of_undecided waits.undecided] at hpend
    simp at hpend
  | ends ends =>
    cases ends with
    | finished o => simp [pending?] at hpend
    | touches known u =>
      obtain ⟨rfl, rfl⟩ : _ = id ∧ u = t := by simpa [pending?, touching] using hpend
      exact known
  | failed x => simp [pending?] at hpend

/-- A turn of a reconciliation. -/
lemma Company.turn (h : Company m calls n ps l) (hn : m = .table → n < 2 ^ 63) {i : Nat}
    (hp : ps[i]? = some p) (now : Time.Instant) :
    Company m calls (n + 1) (ps.set i (p.once (Ledger.step now) l).1)
        (p.once (Ledger.step now) l).2 ∧
      ∃ c, calls[i]? = some c ∧
        Effect l c now p (p.once (Ledger.step now) l).1 (p.once (Ledger.step now) l).2 := by
  obtain ⟨hi, -⟩ := List.getElem?_eq_some_iff.mp hp
  have hlt : i < calls.length := h.length ▸ hi
  have hask := h.asks p (List.mem_of_getElem? hp)
  have hplain : p.Asks (Operation.Plain l.medium) := by
    rw [h.medium]
    exact hask
  obtain ⟨hs', hadv⟩ := asks_once now h.sound hplain
  have hc : calls[i]? = some calls[i] := List.getElem?_eq_getElem hlt
  obtain ⟨hstand, heffect⟩ := (h.standing i _ p hc hp).once h.sound (h.medium ▸ hn) hadv hs'
  refine ⟨⟨hs', hadv.medium.trans h.medium, ?_, ?_, ?_⟩, _, hc, heffect⟩
  · intro q hq
    rcases List.mem_or_eq_of_mem_set hq with hq | rfl
    · exact h.asks q hq
    · exact hask.once l
  · rw [List.length_set]
    exact h.length
  · intro j d q hd hq
    by_cases hj : i = j
    · subst hj
      obtain rfl := Option.some.inj (hc.symm.trans hd)
      rw [List.getElem?_set_self hi] at hq
      obtain rfl := Option.some.inj hq
      exact hstand
    · rw [List.getElem?_set_ne hj] at hq
      exact (h.standing j d q hd hq).advance hadv hs'

/-- A turn of nobody. -/
lemma Company.older (h : Company m calls n ps l) : Company m calls (n + 1) ps l :=
  { h with standing := fun i c p hc hp => (h.standing i c p hc hp).advance .rfl h.sound }

/-! ### A whole run -/

/-- The reconciliations that are called for. -/
def programs (calls : List (Event × List Char)) : List (Session (Except Error Outcome)) :=
  calls.map fun c => reconcile c.1 c.2

lemma waits_reconcile (n : Nat) (l : Ledger) (e : Event) (suffix : List Char) :
    Waits n l e suffix (reconcile e suffix) := by
  by_cases hk : e.kind = .lost
  · rw [reconcile_lost hk]
    exact .finds hk
  · exact .starts hk

lemma decided?_programs {i : Nat} (hp : (programs calls)[i]? = some p) : decided? p = none := by
  rw [programs, List.getElem?_map] at hp
  obtain ⟨c, -, rfl⟩ := Option.map_eq_some_iff.mp hp
  exact (waits_reconcile 0 ⟨.table, 0, []⟩ c.1 c.2).undecided

lemma company_programs (hs : l.Sound) (hm : l.medium = m)
    (hseen : ∀ c ∈ calls, m.Keeps c.1.node.lastSeen) : Company m calls 0 (programs calls) l where
  sound := hs
  medium := hm
  asks := by
    intro p hp
    obtain ⟨c, hc, rfl⟩ := List.mem_map.mp hp
    exact reconcile_asks (hseen c hc) c.2
  length := List.length_map ..
  standing := by
    intro i c p hc hp
    rw [programs, List.getElem?_map, hc] at hp
    obtain rfl := Option.some.inj hp
    exact .waits (waits_reconcile 0 l c.1 c.2)

lemma ahead_of_undecided (l : Ledger) (h : ∀ p ∈ ps, decided? p = none) : l.ahead ps = l := by
  induction ps generalizing l with
  | nil => rfl
  | cons p ps ih =>
    have hp := Ledger.after_of_none (l := l) (pending?_of_undecided (h p (by simp)))
    rw [Ledger.ahead, List.foldl_cons, hp]
    exact ih l fun q hq => h q (by simp [hq])

lemma ahead_done (l : Ledger) (results : List (Except Error Outcome)) :
    l.ahead (results.map Program.done : List (Session (Except Error Outcome))) = l := by
  induction results generalizing l with
  | nil => rfl
  | cons x results ih => exact ih l

/-- What is to come: the reconciliations that have decided give what is decided, and the others
decide in some order. -/
structure Resolves (calls : List (Event × List Char)) (results : List (Except Error Outcome))
    (times : List Time.Instant) (ps : List (Session (Except Error Outcome))) (l l' : Ledger) :
    Prop where
  decided : ∀ (i : Nat) p x, ps[i]? = some p → decided? p = some x → results[i]? = some x
  order : ∃ order, Program.Serially Ledger.step (programs calls) results order (l.ahead ps) l' ∧
    (order.map Prod.fst).Nodup ∧ (∀ u ∈ order, u.2 ∈ times) ∧
    ∀ i, i ∈ order.map Prod.fst ↔
      (∃ p, ps[i]? = some p ∧ decided? p = none) ∧ ∃ o, results[i]? = some (.ok o)

section

variable {results : List (Except Error Outcome)} {times : List Time.Instant}

lemma resolves_done (calls : List (Event × List Char)) (l : Ledger) :
    Resolves calls results times (results.map .done) l l := by
  have hdone : ∀ (i : Nat) p, (results.map Program.done)[i]? = some p →
      ∃ x, results[i]? = some x ∧ p = (.done x : Session (Except Error Outcome)) := by
    intro i p hp
    rw [List.getElem?_map] at hp
    obtain ⟨x, hx, rfl⟩ := Option.map_eq_some_iff.mp hp
    exact ⟨x, hx, rfl⟩
  refine ⟨?_, [], ?_, List.nodup_nil, by simp, ?_⟩
  · intro i p x hp hx
    obtain ⟨y, hy, rfl⟩ := hdone i p hp
    obtain rfl := Option.some.inj hx
    exact hy
  · rw [ahead_done]
    exact .nil l
  · intro i
    simp only [List.map_nil, List.not_mem_nil, false_iff]
    rintro ⟨⟨p, hp, hund⟩, -⟩
    obtain ⟨y, -, rfl⟩ := hdone i p hp
    simp [decided?] at hund

section

variable {p' : Session (Except Error Outcome)} {l₁ : Ledger} {i : Nat}
  {order : List (Nat × Time.Instant)}

lemma getElem?_set_turn (hp : ps[i]? = some p) (p' : Session (Except Error Outcome)) :
    (ps.set i p')[i]? = some p' :=
  List.getElem?_set_self (List.getElem?_eq_some_iff.mp hp).1

lemma undecided_iff (hp : ps[i]? = some p) :
    (∃ q, ps[i]? = some q ∧ decided? q = none) ↔ decided? p = none := by
  rw [hp]
  simp

/-- Nobody but the one whose turn it is goes on. -/
lemma undecided_set (hp : ps[i]? = some p) (p' : Session (Except Error Outcome)) (j : Nat) :
    (∃ q, (ps.set i p')[j]? = some q ∧ decided? q = none) ↔
      if j = i then decided? p' = none else ∃ q, ps[j]? = some q ∧ decided? q = none := by
  split
  next h =>
    subst h
    exact undecided_iff (getElem?_set_turn hp p')
  next h => rw [List.getElem?_set_ne (Ne.symm h)]

lemma Resolves.decided_before (h : Resolves calls results times (ps.set i p') l₁ l')
    (hp : ps[i]? = some p) (hpp : ∀ x, decided? p = some x → decided? p' = some x) (j : Nat)
    (q : Session (Except Error Outcome)) (x : Except Error Outcome) (hq : ps[j]? = some q)
    (hx : decided? q = some x) : results[j]? = some x := by
  by_cases hj : j = i
  · subst hj
    obtain rfl := Option.some.inj (hp.symm.trans hq)
    exact h.decided j p' x (getElem?_set_turn hp p') (hpp x hx)
  · exact h.decided j q x (by rw [List.getElem?_set_ne (Ne.symm hj)]; exact hq) hx

lemma Resolves.of_waits (h : Resolves calls results times (ps.set i p') l l')
    (hp : ps[i]? = some p) (now : Time.Instant) (before : decided? p = none)
    (after : ∀ o, decided? p' ≠ some (.ok o)) :
    Resolves calls results (now :: times) ps l l' := by
  have hself := getElem?_set_turn hp p'
  obtain ⟨order, hserial, hnodup, htimes, hmem⟩ := h.order
  have hsame := Ledger.ahead_set ps hp p' l
  rw [Ledger.after_of_none (pending?_of_undecided before),
    Ledger.after_of_none (pending?_of_decided? after)] at hsame
  rw [hsame] at hserial
  refine ⟨h.decided_before hp fun x hx => by simp [before] at hx, order, hserial, hnodup,
    fun u hu => by simp [htimes u hu], fun j => ?_⟩
  rw [hmem j, undecided_set hp]
  refine and_congr_left fun ⟨o, ho⟩ => ?_
  split
  next hj =>
    subst hj
    rw [undecided_iff hp]
    refine iff_of_true ?_ before
    -- the result is none that it can have come to by failing
    cases hx : decided? p' with
    | none => rfl
    | some x =>
      obtain rfl := Option.some.inj ((h.decided j p' x hself hx).symm.trans ho)
      exact absurd hx (after o)
  next => exact Iff.rfl

lemma Resolves.of_decides (h : Resolves calls results times (ps.set i p') l₁ l')
    (hp : ps[i]? = some p) (hc : calls[i]? = some c) (before : decided? p = none)
    (after : decided? p' = some (.ok o))
    (effect : alone now c.1 c.2 (l.ahead ps) = (.ok o, (l₁.ahead ps).after p')) :
    Resolves calls results (now :: times) ps l l' := by
  have hself := getElem?_set_turn hp p'
  obtain ⟨order, hserial, hnodup, htimes, hmem⟩ := h.order
  have hsame := Ledger.ahead_set ps hp p' l₁
  rw [Ledger.after_of_none (pending?_of_undecided before)] at hsame
  rw [hsame] at hserial
  have hprogram : (programs calls)[i]? = some (reconcile c.1 c.2) := by
    rw [programs, List.getElem?_map, hc]
    rfl
  have hresult := h.decided i p' _ hself after
  have hmem' : ∀ j, j ∈ order.map Prod.fst ↔ (if j = i then False else
      ∃ q, ps[j]? = some q ∧ decided? q = none) ∧ ∃ o, results[j]? = some (.ok o) := by
    intro j
    rw [hmem j, undecided_set hp, after]
    simp
  refine ⟨h.decided_before hp fun x hx => by simp [before] at hx, (i, now) :: order,
    .cons hprogram hresult effect hserial, ?_, ?_, ?_⟩
  · refine List.nodup_cons.mpr ⟨fun hi => ?_, hnodup⟩
    simp [hmem'] at hi
  · intro u hu
    rcases List.mem_cons.mp hu with rfl | hu
    · simp
    · simp [htimes u hu]
  · intro j
    rw [List.map_cons, List.mem_cons, hmem']
    by_cases hj : j = i
    · subst hj
      rw [undecided_iff hp]
      exact iff_of_true (.inl rfl) ⟨before, _, hresult⟩
    · simp [hj]

lemma Resolves.of_ends {x : Except Error Outcome}
    (h : Resolves calls results times (ps.set i p') (l.after p) l') (hp : ps[i]? = some p)
    (now : Time.Instant) (before : decided? p = some x) (after : decided? p' = some x)
    (through : pending? p' = none) : Resolves calls results (now :: times) ps l l' := by
  obtain ⟨order, hserial, hnodup, htimes, hmem⟩ := h.order
  -- what is written now was ahead of the ledger before
  have hback : (l.after p).ahead (ps.set i p') = l.ahead ps := by
    rw [Ledger.ahead_hom (·.after p) (fun l q => l.after_after p q), Ledger.ahead_set ps hp p',
      Ledger.after_of_none through]
  rw [hback] at hserial
  refine ⟨h.decided_before hp fun y hy => after.trans (before.symm.trans hy), order, hserial,
    hnodup, fun u hu => by simp [htimes u hu], fun j => ?_⟩
  rw [hmem j, undecided_set hp]
  refine and_congr_left fun _ => ?_
  split
  next hj =>
    subst hj
    rw [undecided_iff hp, before, after]
  next => exact Iff.rfl

end

/-- What was to come before a turn, from what is to come after it. -/
lemma Effect.resolves {p' : Session (Except Error Outcome)} {l₁ : Ledger} {i : Nat}
    (h : Effect l c now p p' l₁) (hp : ps[i]? = some p) (hc : calls[i]? = some c)
    (hps : Founded l ps) (hrest : Resolves calls results times (ps.set i p') l₁ l') :
    Resolves calls results (now :: times) ps l l' := by
  cases h with
  | waits before after => exact hrest.of_waits hp now before after
  | decides before after effect => exact hrest.of_decides hp hc before after (effect ps hps)
  | ends before after through => exact hrest.of_ends hp now before after through

lemma Resolves.older (h : Resolves calls results times ps l l') (now : Time.Instant) :
    Resolves calls results (now :: times) ps l l' := by
  obtain ⟨hdecided, order, hserial, hnodup, htimes, hmem⟩ := h
  exact ⟨hdecided, order, hserial, hnodup, fun u hu => by simp [htimes u hu], hmem⟩

/-- From wherever the reconciliations stand, a run of them is one in order. -/
lemma Company.resolves (turns : List (Nat × Time.Instant)) (h : Company m calls n ps l)
    (hn : m = .table → n + turns.length ≤ 2 ^ 63)
    (hrun : Program.interleave Ledger.step turns ps l = (results.map .done, l')) :
    Resolves calls results (turns.map Prod.snd) ps l l' := by
  induction turns generalizing n ps l with
  | nil =>
    obtain ⟨rfl, rfl⟩ : ps = results.map .done ∧ l = l' := by
      simpa [Program.interleave, Prod.ext_iff] using hrun
    exact resolves_done calls l
  | cons u turns ih =>
    obtain ⟨i, now⟩ := u
    have hlen : m = .table → n + 1 + turns.length ≤ 2 ^ 63 := fun hm => by
      have := hn hm
      rw [List.length_cons] at this
      omega
    rw [Program.interleave] at hrun
    cases hp : ps[i]? with
    | none =>
      rw [Program.turn_of_none hp] at hrun
      exact (ih h.older hlen hrun).older now
    | some p =>
      have hlt : m = .table → n < 2 ^ 63 := fun hm => by
        have := hlen hm
        omega
      rw [Program.turn_of_some hp] at hrun
      obtain ⟨hcompany, c, hc, heffect⟩ := h.turn hlt hp now
      exact heffect.resolves hp hc h.founded (ih hcompany hlen hrun)

/-- The reconciliations after some turns. -/
lemma Company.interleave (turns : List (Nat × Time.Instant)) (h : Company m calls n ps l)
    (hn : m = .table → n + turns.length ≤ 2 ^ 63) :
    Company m calls (n + turns.length) (Program.interleave Ledger.step turns ps l).1
      (Program.interleave Ledger.step turns ps l).2 := by
  induction turns generalizing n ps l with
  | nil => exact h
  | cons u turns ih =>
    obtain ⟨i, now⟩ := u
    have hlen : m = .table → n + 1 + turns.length ≤ 2 ^ 63 := fun hm => by
      have := hn hm
      rw [List.length_cons] at this
      omega
    have hcount : n + (turns.length + 1) = n + 1 + turns.length := by omega
    rw [Program.interleave, List.length_cons, hcount]
    cases hp : ps[i]? with
    | none =>
      rw [Program.turn_of_none hp]
      exact ih h.older hlen
    | some p =>
      have hlt : m = .table → n < 2 ^ 63 := fun hm => by
        have := hlen hm
        omega
      rw [Program.turn_of_some hp]
      exact ih (h.turn hlt hp now).1 hlen

/-- A turn of a reconciliation that is going to fail changes nothing. -/
lemma Effect.unchanged {p' : Session (Except Error Outcome)} {l₁ : Ledger} {i : Nat} {x : Error}
    (h : Effect l c now p p' l₁) (hi : i < ps.length)
    (hrest : Resolves calls results times (ps.set i p') l₁ l')
    (hx : results[i]? = some (.error x)) : l₁ = l := by
  have hself : (ps.set i p')[i]? = some p' := List.getElem?_set_self hi
  cases h with
  | waits before after => rfl
  | decides before after effect =>
    have := hrest.decided i p' _ hself after
    rw [hx] at this
    simp at this
  | ends before after through =>
    refine Ledger.after_of_none (pending?_of_decided? fun o ho => ?_)
    have := hrest.decided i p' _ hself (after.trans (before.symm.trans ho))
    rw [hx] at this
    simp at this

lemma Company.unchanged {front back : List (Nat × Time.Instant)} {i : Nat} {x : Error}
    (h : Company m calls n ps l) (hn : m = .table → n + (front ++ (i, now) :: back).length ≤ 2 ^ 63)
    (hrun : Program.interleave Ledger.step (front ++ (i, now) :: back) ps l =
      (results.map .done, l')) (hx : results[i]? = some (.error x)) :
    (Program.interleave Ledger.step (front ++ [(i, now)]) ps l).2 =
      (Program.interleave Ledger.step front ps l).2 := by
  rw [List.length_append, List.length_cons] at hn
  have hfront := h.interleave front fun hm => by
    have := hn hm
    omega
  rw [Program.interleave_append] at hrun ⊢
  generalize (Program.interleave Ledger.step front ps l).1 = ps₁ at *
  generalize (Program.interleave Ledger.step front ps l).2 = l₁ at *
  rw [Program.interleave] at hrun
  simp only [Program.interleave]
  cases hp : ps₁[i]? with
  | none => rw [Program.turn_of_none hp]
  | some p =>
    have hlt : m = .table → n + front.length < 2 ^ 63 := fun hm => by
      have := hn hm
      omega
    have hback : m = .table → n + front.length + 1 + back.length ≤ 2 ^ 63 := fun hm => by
      have := hn hm
      omega
    rw [Program.turn_of_some hp] at hrun ⊢
    obtain ⟨hcompany, c, hc, heffect⟩ := hfront.turn hlt hp now
    exact heffect.unchanged (List.getElem?_eq_some_iff.mp hp).1
      (hcompany.resolves back hback hrun) hx

end

end NodeWatch.Reconcile
