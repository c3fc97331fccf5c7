import NodeWatch.Proofs.Reconcile.Serializable
import NodeWatch.Proofs.Reconcile.Settled

/-!
Reconciliations that work on one store at the same time.

There is an order in which those that succeed could have worked one after the other, and nothing
that one of them has written is lost.
-/

namespace NodeWatch.Reconcile

open Store

/-- What an event has told the ledger is there as long as no later event at its address tells
something else. -/
structure Lasts (later : Event → Prop) (e : Event) (l : Ledger) : Prop where
  seen : Seen e → ∃ s, liveAt l.records e.node.address = some s ∧
    e.node.lastSeen ≤ s.lastSeen ∧
    ((∀ d, later d → d.node.address = e.node.address → Seen d) → s.status ≠ .unknown) ∧
    (∀ x, e.node.architecture? = some x → (∀ d, later d → d.node.address = e.node.address →
      Seen d → d.node.architecture? = none) → s.architecture = x) ∧
    (∀ x, e.node.model? = some x → (∀ d, later d → d.node.address = e.node.address →
      Seen d → d.node.model? = none) → s.model = x)
  lost : e.kind = .lost → (∀ d, later d → d.node.address = e.node.address → d.kind = .lost) →
    ∀ s, liveAt l.records e.node.address = some s → s.status = .unknown

/-- The events of the calls at some places of an order. -/
def Among (calls : List (Event × List Char)) (order : List (Nat × Time.Instant)) (d : Event) :
    Prop :=
  ∃ u ∈ order, ∃ suffix, calls[u.1]? = some (d, suffix)

variable {l l' : Ledger} {e d : Event} {later : Event → Prop} {now : Time.Instant}
  {suffix : List Char} {calls : List (Event × List Char)} {o : Outcome}
  {results : List (Except Error Outcome)} {order : List (Nat × Time.Instant)}

/-! ### One after the other -/

lemma Lasts.of_settles (h : Settles e l l') (later : Event → Prop) : Lasts later e l' where
  seen := by
    intro hk
    obtain ⟨s, hs, hshows, -⟩ := h.exists_shows hk
    exact ⟨s, hs, hshows.lastSeen, fun _ => hshows.present,
      fun x hx _ => hshows.architecture x hx, fun x hx _ => hshows.model x hx⟩
  lost := by
    intro hk _ s hs
    obtain ⟨r, -, hmarked⟩ := h.exists_marked hk hs
    exact hmarked.status

/-- A later event changes nothing but what it tells. -/
lemma Lasts.settles (h : Lasts later e l) (hd : later d) (hl : Settles d l l') :
    Lasts later e l' := by
  by_cases ha : d.node.address = e.node.address
  · constructor
    · intro hk
      obtain ⟨r, hr, hseen, hstatus, harch, hmodel⟩ := h.seen hk
      rw [← ha] at hr
      by_cases hkd : d.kind = .lost
      · obtain ⟨s, hs, hmarked⟩ := hl.marks hkd hr
        refine ⟨s, by rw [← ha]; exact hs, ?_, fun hall => absurd hkd (hall d hd ha), ?_, ?_⟩
        · rw [hmarked.lastSeen]
          exact hseen
        · intro x hx hnone
          rw [hmarked.architecture]
          exact harch x hx hnone
        · intro x hx hnone
          rw [hmarked.model]
          exact hmodel x hx hnone
      · obtain ⟨s, hs, hshows, hinherits⟩ := hl.exists_shows hkd
        have hinh := hinherits r hr
        refine ⟨s, by rw [← ha]; exact hs, Time.Instant.le_trans hseen hinh.lastSeen,
          fun _ => hshows.present, ?_, ?_⟩
        · intro x hx hnone
          rw [hinh.architecture (hnone d hd ha hkd)]
          exact harch x hx hnone
        · intro x hx hnone
          rw [hinh.model (hnone d hd ha hkd)]
          exact hmodel x hx hnone
    · intro hk hall s hs
      rw [← ha] at hs
      obtain ⟨r, -, hmarked⟩ := hl.exists_marked (hall d hd ha) hs
      exact hmarked.status
  · have helse := hl.elsewhere e.node.address (Ne.symm ha)
    constructor
    · rw [helse]
      exact h.seen
    · rw [helse]
      exact h.lost

lemma run_steady {α σ : Type} (answer : Time.Instant → (op : Operation) → σ → op.Answer × σ)
    (now : Time.Instant) (p : Session α) (s : σ) :
    Course.run (fun _ => (now, none)) answer p s = p.run (answer now) s := by
  have hfrom : ∀ n, ((p.run (Course.step (fun _ => (now, none)) answer) (s, n)).1,
      (p.run (Course.step (fun _ => (now, none)) answer) (s, n)).2.1) = p.run (answer now) s := by
    induction p generalizing s with
    | done x => exact fun _ => rfl
    | ask q next ih => exact fun n => ih _ _ (n + 1)
  exact hfrom 0

lemma alone_settles (hs : l.Sound) (h : alone now e suffix l = (.ok o, l')) : Settles e l l' := by
  have hfine := fine_reconcile hs (fun _ => (now, none)) e suffix
  rw [run_steady Ledger.step now, ← alone, h] at hfine
  exact hfine

/-- Programs that ask plainly keep a ledger sound. -/
lemma run_sound {α : Type} {p : Session α} (hp : p.Asks (Operation.Plain l.medium)) (hs : l.Sound)
    (now : Time.Instant) :
    (p.run (Ledger.step now) l).2.Sound ∧ (p.run (Ledger.step now) l).2.medium = l.medium := by
  generalize hm : l.medium = m at hp
  induction hp generalizing l with
  | done x => exact ⟨hs, hm⟩
  | @ask q next here later ih =>
    rw [Program.run_ask]
    rw [← hm] at here
    exact ih _ (hs.step now here) ((l.medium_step now q).trans hm)

/-- A member of an order does what it does alone. -/
lemma cons_settles {m : Medium} (hs : l.Sound) (hm : l.medium = m)
    (hseen : ∀ c ∈ calls, m.Keeps c.1.node.lastSeen) {i : Nat} {p : Session (Except Error Outcome)}
    {c : Event × List Char} (hc : calls[i]? = some c) (hp : (programs calls)[i]? = some p)
    (hrun : p.run (Ledger.step now) l = (.ok o, l')) :
    Settles c.1 l l' ∧ l'.Sound ∧ l'.medium = m := by
  rw [programs, List.getElem?_map, hc] at hp
  obtain rfl := Option.some.inj hp
  have hplain : (reconcile c.1 c.2).Asks (Operation.Plain l.medium) := by
    rw [hm]
    exact reconcile_asks (hseen c (List.mem_of_getElem? hc)) c.2
  obtain ⟨hs', hm'⟩ := run_sound hplain hs now
  rw [hrun] at hs' hm'
  exact ⟨alone_settles hs hrun, hs', hm'.trans hm⟩

section

variable {m : Medium} (hm : l.medium = m) (hseen : ∀ c ∈ calls, m.Keeps c.1.node.lastSeen)
  (hok : ∀ u ∈ order, ∃ c o, calls[u.1]? = some c ∧ results[u.1]? = some (.ok o))
  (hrun : Program.Serially Ledger.step (programs calls) results order l l')
include hm hseen hok hrun

lemma serially_sound (hs : l.Sound) : l'.Sound ∧ l'.medium = m := by
  induction hrun with
  | nil l => exact ⟨hs, hm⟩
  | @cons i t order p a l l₁ l₂ program result runs rest ih =>
    obtain ⟨c, o, hc, ho⟩ := hok (i, t) (by simp)
    obtain rfl := Option.some.inj (result.symm.trans ho)
    obtain ⟨-, hs₁, hm₁⟩ := cons_settles hs hm hseen hc program runs
    exact ih hm₁ (fun u hu => hok u (by simp [hu])) hs₁

lemma serially_lasts (hs : l.Sound) (hlater : ∀ d, Among calls order d → later d)
    (h : Lasts later e l) : Lasts later e l' := by
  induction hrun with
  | nil l => exact h
  | @cons i t order p a l l₁ l₂ program result runs rest ih =>
    obtain ⟨c, o, hc, ho⟩ := hok (i, t) (by simp)
    obtain rfl := Option.some.inj (result.symm.trans ho)
    obtain ⟨hsettles, hs₁, hm₁⟩ := cons_settles hs hm hseen hc program runs
    refine ih hm₁ (fun u hu => hok u (by simp [hu])) hs₁ ?_ ?_
    · rintro d ⟨u, hu, suffix, hd⟩
      exact hlater d ⟨u, by simp [hu], suffix, hd⟩
    · exact h.settles (hlater c.1 ⟨(i, t), by simp, c.2, hc⟩) hsettles

/-- Each member has left what it tells, but for what those after it tell. -/
lemma serially_lasts_of_append (hs : l.Sound) {front back : List (Nat × Time.Instant)}
    {u : Nat × Time.Instant} {c : Event × List Char} (horder : order = front ++ u :: back)
    (hc : calls[u.1]? = some c) : Lasts (Among calls back) c.1 l' := by
  subst horder
  obtain ⟨i, now⟩ := u
  obtain ⟨l₁, hfront, hback⟩ := hrun.split
  obtain ⟨hs₁, hm₁⟩ := serially_sound hm hseen (fun v hv => hok v (by simp [hv])) hfront hs
  cases hback with
  | @cons _ _ _ p a _ l₂ _ program result runs rest =>
    obtain ⟨-, o, -, ho⟩ := hok (i, now) (by simp)
    obtain rfl := Option.some.inj (result.symm.trans ho)
    obtain ⟨hsettles, hs₂, hm₂⟩ := cons_settles hs₁ hm₁ hseen hc program runs
    exact serially_lasts hm₂ hseen (fun v hv => hok v (by simp [hv])) rest hs₂
      (fun d hd => hd) (.of_settles hsettles _)

end

/-! ### By turns -/

section

variable {l₀ : Ledger} {turns : List (Nat × Time.Instant)} (hs : l₀.Sound)
  (hseen : ∀ c ∈ calls, l₀.medium.Keeps c.1.node.lastSeen)
include hs hseen

/-- Those that succeed have an order in which they do alone what they have done by turns. -/
lemma exists_order (hcount : l₀.medium = .table → turns.length ≤ 2 ^ 63)
    (hrun : Program.interleave Ledger.step turns (programs calls) l₀ =
      (results.map .done, l)) :
    ∃ order, Program.Serially Ledger.step (programs calls) results order l₀ l ∧
      (order.map Prod.fst).Nodup ∧ (∀ u ∈ order, u.2 ∈ turns.map Prod.snd) ∧
      (∀ i, i ∈ order.map Prod.fst ↔ ∃ o, results[i]? = some (.ok o)) ∧
      ∀ u ∈ order, ∃ c o, calls[u.1]? = some c ∧ results[u.1]? = some (.ok o) := by
  have hcompany := company_programs hs rfl hseen
  have hzero : l₀.medium = .table → 0 + turns.length ≤ 2 ^ 63 := by
    rw [Nat.zero_add]
    exact hcount
  obtain ⟨-, order, hserial, hnodup, htimes, hmem⟩ := hcompany.resolves turns hzero hrun
  -- in the beginning nobody has decided, so that there is nothing to be ahead of
  have hnone : ∀ p ∈ programs calls, decided? p = none := by
    intro p hp
    obtain ⟨i, hi⟩ := List.getElem?_of_mem hp
    exact decided?_programs hi
  rw [ahead_of_undecided l₀ hnone] at hserial
  have hlength : results.length = calls.length := by
    have h := (hcompany.interleave turns hzero).length
    rwa [hrun, List.length_map] at h
  have hsucceeded : ∀ i, i ∈ order.map Prod.fst ↔ ∃ o, results[i]? = some (.ok o) := by
    intro i
    rw [hmem i]
    refine and_iff_right_of_imp fun ⟨o, ho⟩ => ?_
    obtain ⟨hi, -⟩ := List.getElem?_eq_some_iff.mp ho
    have hlt : i < (programs calls).length := by
      rw [hcompany.length, ← hlength]
      exact hi
    exact ⟨_, List.getElem?_eq_getElem hlt, hnone _ (List.getElem_mem hlt)⟩
  refine ⟨order, hserial, hnodup, htimes, hsucceeded, fun u hu => ?_⟩
  obtain ⟨o, ho⟩ := (hsucceeded u.1).mp (List.mem_map_of_mem hu)
  obtain ⟨hi, -⟩ := List.getElem?_eq_some_iff.mp ho
  exact ⟨_, o, List.getElem?_eq_getElem (hlength ▸ hi), ho⟩

/-- By turns on a store it goes as on its ledger. -/
lemma tracks_interleave {r₀ : Repository} (h₀ : r₀.Holds l₀)
    (hclock : ∀ u ∈ turns, l₀.medium.Keeps u.2) :
    (Program.interleave Repository.step turns (programs calls) r₀).1 =
        (Program.interleave Ledger.step turns (programs calls) l₀).1 ∧
      Repository.Tracks l₀.medium (Program.interleave Repository.step turns (programs calls) r₀).2
        (Program.interleave Ledger.step turns (programs calls) l₀).2 :=
  Program.Alike.interleave turns (fun u hu => Repository.alike (hclock u hu))
    (company_programs hs rfl hseen).asks ⟨h₀, hs, rfl⟩

end

/-! ### On a store -/

/-- Reconciliations that have taken turns on a store have done what those of them that succeeded do
in this order, one after the other. -/
structure Serializes (calls : List (Event × List Char)) (turns : List (Nat × Time.Instant))
    (results : List (Except Error Outcome)) (r₀ r : Repository)
    (order : List (Nat × Time.Instant)) (l : Ledger) : Prop where
  /-- No turn of one that fails changes the ledger. -/
  failed : ∀ front i now back x, turns = front ++ (i, now) :: back →
    results[i]? = some (.error x) →
    ∃ l₁, (Program.interleave Repository.step front (programs calls) r₀).2.Holds l₁ ∧
      (Program.interleave Repository.step (front ++ [(i, now)]) (programs calls) r₀).2.Holds l₁
  once : (order.map Prod.fst).Nodup
  succeeded : ∀ i, i ∈ order.map Prod.fst ↔ ∃ o, results[i]? = some (.ok o)
  /-- One after the other they give the same results and leave the same ledger. -/
  serial : ∃ r', Program.Serially Repository.step (programs calls) results order r₀ r' ∧
    r'.Holds l
  holds : r.Holds l
  unique : ∀ s ∈ l.records, ∀ s' ∈ l.records, s.isLive = true → s'.isLive = true →
    s.address = s'.address → s = s'
  lasts : ∀ front u back c, order = front ++ u :: back → calls[u.1]? = some c →
    Lasts (Among calls back) c.1 l

/-- **Reconciliations that take turns can be put in order.** Whatever the turns are, those that
fail have changed nothing, and those that succeed have done what they do one after the other. -/
theorem interleaved_serializes {turns : List (Nat × Time.Instant)} {r₀ r : Repository} {l₀ : Ledger}
    (h₀ : r₀.Holds l₀) (hs : l₀.Sound) (hseen : ∀ c ∈ calls, l₀.medium.Keeps c.1.node.lastSeen)
    (hclock : ∀ u ∈ turns, l₀.medium.Keeps u.2)
    (hcount : l₀.medium = .table → turns.length ≤ 2 ^ 63)
    (hrun : Program.interleave Repository.step turns (programs calls) r₀ =
      (results.map .done, r)) :
    ∃ order l, Serializes calls turns results r₀ r order l := by
  have hcompany := company_programs hs rfl hseen
  obtain ⟨hps, hr⟩ := tracks_interleave hs hseen h₀ hclock
  rw [hrun] at hps hr
  have hrun' : Program.interleave Ledger.step turns (programs calls) l₀ =
      (results.map .done, (Program.interleave Ledger.step turns (programs calls) l₀).2) :=
    Prod.ext hps.symm rfl
  generalize (Program.interleave Ledger.step turns (programs calls) l₀).2 = l at hr hrun'
  obtain ⟨order, hserial, hnodup, htimes, hsucceeded, hok⟩ := exists_order hs hseen hcount hrun'
  obtain ⟨hs', -⟩ := serially_sound rfl hseen hok hserial hs
  refine ⟨order, l, ?failed, hnodup, hsucceeded, ?serial, hr.1, ?unique, ?lasts⟩
  case failed =>
    intro front i now back x hturns hx
    subst hturns
    obtain ⟨-, hbefore⟩ := tracks_interleave hs hseen h₀ fun u (hu : u ∈ front) =>
      hclock u (by simp [hu])
    obtain ⟨-, hafter⟩ := tracks_interleave hs hseen h₀ fun u (hu : u ∈ front ++ [(i, now)]) =>
      hclock u (by
        rw [List.mem_append, List.mem_singleton] at hu
        rcases hu with hu | rfl <;> simp_all)
    have hzero : l₀.medium = .table → 0 + (front ++ (i, now) :: back).length ≤ 2 ^ 63 := by
      rw [Nat.zero_add]
      exact hcount
    rw [hcompany.unchanged hzero hrun' hx] at hafter
    exact ⟨_, hbefore.1, hafter.1⟩
  case serial =>
    have hclock' : ∀ u ∈ order, l₀.medium.Keeps u.2 := by
      intro u hu
      obtain ⟨v, hv, hvu⟩ := List.mem_map.mp (htimes u hu)
      rw [← hvu]
      exact hclock v hv
    obtain ⟨r', hserial', htracks'⟩ := hserial.alike (fun u hu => Repository.alike (hclock' u hu))
      hcompany.asks (⟨h₀, hs, rfl⟩ : Repository.Tracks l₀.medium r₀ l₀)
    exact ⟨r', hserial', htracks'.1⟩
  case unique =>
    intro s hsm s' hsm' hsl hsl' ha
    exact hs'.orderly.eq_of_id hsm hsm' (hs'.orderly.2 s hsm s' hsm' hsl hsl' (.inl ha))
  case lasts =>
    intro front u back c horder hc
    exact serially_lasts_of_append rfl hseen hok hserial hs horder hc

/-- Two nodes at one address are seen; only the second tells its architecture. -/
def rivals : List (Event × List Char) :=
  let o : Observation := .bare "a" "pi" (.v4 10 0 0 1) 80 (.ofSeconds 0)
  [(⟨.discovered, o⟩, []),
    (⟨.discovered, { o with id := "b", metadata := .ofList [("arch", "arm64")] }⟩, [])]

/-- Both find no record, the first makes one, and the second comes back to it. -/
theorem interleaved_serializes_for_rivals : ∃ r order l,
    Program.interleave Repository.step ([0, 1, 0, 1, 1, 1].map fun i => (i, .ofSeconds i))
      (programs rivals) Repository.inMemory = ([.ok .created, .ok .updated].map .done, r) ∧
    Serializes rivals ([0, 1, 0, 1, 1, 1].map fun i => (i, .ofSeconds i))
      [.ok .created, .ok .updated] Repository.inMemory r order l := by
  have hrun : ∃ r, Program.interleave Repository.step
      ([0, 1, 0, 1, 1, 1].map fun i => (i, Time.Instant.ofSeconds i)) (programs rivals)
      Repository.inMemory = ([.ok .created, .ok .updated].map .done, r) := ⟨_, rfl⟩
  obtain ⟨r, hrun⟩ := hrun
  obtain ⟨order, l, h⟩ := interleaved_serializes Repository.holds_inMemory (Ledger.sound_nil _)
    (fun _ _ => trivial) (fun _ _ => trivial) (fun h => by simp at h) hrun
  exact ⟨r, order, l, hrun, h⟩

end NodeWatch.Reconcile
