import NodeWatch.Proofs.Reconcile.Undisturbed
import NodeWatch.Proofs.Store.Akin

/-!
Events at different addresses, reconciled in one run.

What is recorded at an address, apart from identity and name, is a matter of the events at that
address. Those at others can only take names away.
-/

namespace NodeWatch.Reconcile

open Store

/-! ### Beside an address -/

/-- What an event at an address makes of the records. -/
inductive Affects (a : Net.Address) (rs : List Record) : List Record → Prop where
  | nothing : Affects a rs rs
  | amends {r : Record} {f : Record → Record} (found : liveAt rs a = some r)
    (key : (f r).key = r.key) : Affects a rs (amend r.id f rs)
  | adds {r : Record} (live : r.isLive = true) (here : r.address = a) : Affects a rs (rs ++ [r])

/-- The names that are taken at other addresses. -/
def namesBeside (a : Net.Address) (rs : List Record) : List String :=
  (rs.filter fun r => r.isLive && r.address ≠ a).map (·.name)

section

variable {a b : Net.Address} {rs rs' : List Record} {name : List Char}

lemma isNamed_iff_beside (h : liveAt rs a = none) :
    isNamed rs name = true ↔ String.ofList name ∈ namesBeside a rs := by
  rw [isNamed_iff, namesBeside, List.mem_map]
  constructor
  · rintro ⟨r, hr, hl, hn⟩
    exact ⟨r, List.mem_filter.mpr ⟨hr, by simp [hl, liveAt_eq_none h r hr hl]⟩, hn⟩
  · rintro ⟨r, hr, hn⟩
    obtain ⟨hr, hp⟩ := List.mem_filter.mp hr
    simp only [Bool.and_eq_true] at hp
    exact ⟨r, hr, hp.1, hn⟩

lemma namesBeside_map {g : Record → Record} (hg : KeepsKey g) :
    namesBeside a (rs.map g) = namesBeside a rs := by
  simp only [namesBeside, List.filter_map, List.map_map]
  congr 1
  · funext r
    exact hg.name_eq r
  · congr 1
    funext r
    simp [hg.isLive_eq, hg.address_eq]

namespace Affects

variable (h : Affects b rs rs') (ho : Orderly rs)
include h ho

/-- At another address all is as it was. -/
lemma liveAt_eq (hab : a ≠ b) : liveAt rs' a = liveAt rs a := by
  cases h with
  | nothing => rfl
  | amends found key => exact (ho.liveAt_amend found key).2 a hab
  | @adds r live here =>
    have hother : ¬ (r.isLive = true ∧ r.address = a) := fun hr => hab (hr.2.symm.trans here)
    rw [liveAt_append, if_neg hother, Option.or_none]

lemma namesBeside_subset : namesBeside a rs ⊆ namesBeside a rs' := by
  cases h with
  | nothing => exact List.Subset.refl _
  | amends found key =>
    obtain ⟨g, hg, hmap, -⟩ := ho.amend_eq_map (liveAt_eq_some found).1 key
    rw [hmap, namesBeside_map hg]
    exact List.Subset.refl _
  | adds live here =>
    rw [namesBeside, namesBeside, List.filter_append, List.map_append]
    exact List.subset_append_left _ _

/-- An event takes no name beside its address. -/
lemma namesBeside_eq : namesBeside b rs' = namesBeside b rs := by
  cases h with
  | nothing => rfl
  | amends found key =>
    obtain ⟨g, hg, hmap, -⟩ := ho.amend_eq_map (liveAt_eq_some found).1 key
    rw [hmap, namesBeside_map hg]
  | adds live here => simp [namesBeside, here]

end Affects

end

variable {e : Event} {suffix suffix' : List Char} {s t : Stock} {now now' : Time.Instant}
  {r told : Record} {o : Outcome} {x : Except Error Outcome}

lemma Settling.affects {y : Except Error Outcome × Stock} (h : Settling now e suffix s y) :
    Affects e.node.address s.records y.2.records := by
  cases h with
  | creates seen nobody free => exact .adds rfl rfl
  | touches seen found reads same =>
    simp only [Stock.touch, Medium.tell_id reads]
    exact .amends found rfl
  | @writes r told p o found reads revises =>
    have hid : (told.revised now p).id = r.id := (Medium.tell_id reads :)
    simp only [Stock.rewrite, hid]
    exact .amends (f := fun _ => told.revised now p) found
      (Medium.key_revised reads now revises.name)
  | _ => exact .nothing

lemma affects_settle (now : Time.Instant) (e : Event) (suffix : List Char) (s : Stock) :
    Affects e.node.address s.records (settle now e suffix s).2.records :=
  (settling_settle now e suffix s).affects

/-! ### Names -/

/-- All names were taken. -/
def Exhausted (x : Except Error Outcome) : Prop := ∃ a, x = .error (.nameExhausted a)

lemma not_exhausted_ok : ¬ Exhausted (.ok o) := nofun

lemma not_exhausted_failed {y : Store.Error} : ¬ Exhausted (failed e (.error y)) := nofun

lemma Settling.of_exhausted {y : Except Error Outcome × Stock} (h : Settling now e suffix s y)
    (hx : Exhausted y.1) : Seen e ∧ liveAt s.records e.node.address = none ∧
      firstFree? s.records (candidateNames e.node suffix) = none := by
  cases h with
  | unnamed seen nobody taken => exact ⟨seen, nobody, taken⟩
  | unreadable fails => exact absurd hx not_exhausted_failed
  | full found reads revises last => exact absurd hx not_exhausted_failed
  | _ => exact absurd hx not_exhausted_ok

/-- Only a node without a record can find all names taken. -/
lemma exhausted_settle_iff : Exhausted (settle now e suffix s).1 ↔
    Seen e ∧ liveAt s.records e.node.address = none ∧
      firstFree? s.records (candidateNames e.node suffix) = none := by
  refine ⟨(settling_settle now e suffix s).of_exhausted, fun ⟨seen, nobody, taken⟩ => ?_⟩
  simp only [settle, nobody, Medium.tell?_none, if_neg seen, taken]
  exact ⟨_, rfl⟩

/-! ### At the address -/

/-- Two stores have the same to tell of an address. -/
structure AgreeAt (a : Net.Address) (s t : Stock) : Prop where
  medium : t.medium = s.medium
  here : Option.Rel (Record.Akin s.medium) (liveAt s.records a) (liveAt t.records a)

section

variable {a : Net.Address} {r' told' : Record}

lemma AgreeAt.same (a : Net.Address) (s : Stock) : AgreeAt a s s where
  medium := rfl
  here := by
    cases liveAt s.records a with
    | none => exact .none
    | some r => exact .some ⟨rfl, .inl ⟨rfl, rfl⟩⟩

/-- What is told is the same. -/
lemma AgreeAt.tells (h : AgreeAt a s t) :
    (t.medium.tell? (liveAt t.records a)).map (Option.map Record.content) =
      (s.medium.tell? (liveAt s.records a)).map (Option.map Record.content) := by
  obtain ⟨hmedium, hhere⟩ := h
  rw [hmedium]
  generalize liveAt s.records a = x at hhere ⊢
  generalize liveAt t.records a = y at hhere ⊢
  cases hhere with
  | none => rfl
  | @some r r' hakin =>
    cases ht : s.medium.tell r with
    | error y => rw [Medium.tell?_error ht, Medium.tell?_error (hakin.tell_error ht)]
    | ok told =>
      obtain ⟨told', ht', hcontent⟩ := hakin.tell_ok ht
      rw [Medium.tell?_ok ht, Medium.tell?_ok ht']
      exact congrArg (fun x => Except.ok (some x)) hcontent

/-- A change of only one of them at another address does not matter. -/
lemma AgreeAt.left (h : AgreeAt a s t) (hs : s.Sound) (hne : e.node.address ≠ a) :
    AgreeAt a (settle now e suffix s).2 t := by
  have hmedium := (settling_settle now e suffix s).medium
  refine ⟨h.medium.trans hmedium.symm, ?_⟩
  rw [hmedium, (affects_settle now e suffix s).liveAt_eq hs.orderly hne.symm]
  exact h.here

lemma AgreeAt.right (h : AgreeAt a s t) (ht : t.Sound) (hne : e.node.address ≠ a) :
    AgreeAt a s (settle now e suffix t).2 := by
  refine ⟨(settling_settle now e suffix t).medium.trans h.medium, ?_⟩
  rw [(affects_settle now e suffix t).liveAt_eq ht.orderly hne.symm]
  exact h.here

/-! ### Two runs side by side -/

section

variable (hs : s.Sound) (ht : t.Sound) (h : AgreeAt a s t)
include h

lemma AgreeAt.add {n n' : NewRecord} {st st' : Stamp} (hnobody : liveAt s.records a = none)
    (hnobody' : liveAt t.records a = none) (ha : n.address = a) (ha' : n'.address = a)
    (hakin : (n.toRecord st).Akin s.medium (n'.toRecord st')) :
    AgreeAt a (s.add (n.toRecord st)) (t.add (n'.toRecord st')) := by
  refine ⟨h.medium, ?_⟩
  simp only [Stock.add]
  rw [liveAt_append, liveAt_append, hnobody, hnobody', if_pos ⟨rfl, ha⟩, if_pos ⟨rfl, ha'⟩]
  exact .some hakin

variable (hr : liveAt s.records a = some r) (hr' : liveAt t.records a = some r')
include hs ht hr hr'

lemma AgreeAt.amend (f f' : Record → Record) (hkey : (f r).key = r.key)
    (hkey' : (f' r').key = r'.key) (hakin : (f r).Akin s.medium (f' r')) {s' t' : Stock}
    (hms : s'.medium = s.medium) (hmt : t'.medium = t.medium)
    (hrs : s'.records = Store.amend r.id f s.records)
    (hrt : t'.records = Store.amend r'.id f' t.records) : AgreeAt a s' t' := by
  refine ⟨by rw [hms, hmt, h.medium], ?_⟩
  -- each store finds the record that it has changed itself
  rw [hms, hrs, hrt, (hs.orderly.liveAt_amend hr hkey).1, (ht.orderly.liveAt_amend hr' hkey').1]
  exact .some hakin

variable (hreads : s.medium.tell r = .ok told) (hreads' : t.medium.tell r' = .ok told')
include hreads hreads'

lemma AgreeAt.touch (hakin : r.Akin s.medium r') (u : Time.Instant) :
    AgreeAt a (s.touch told.id u) (t.touch told'.id u) := by
  rw [Medium.tell_id hreads, Medium.tell_id hreads']
  exact h.amend hs ht hr hr' _ _ (keepsKey_touched u r) (keepsKey_touched u r')
    ⟨Record.content_touched hakin.content u, hakin.times⟩ rfl rfl rfl rfl

lemma AgreeAt.revise (hcontent : told'.content = told.content) (hnow : s.medium.Keeps now)
    (hnow' : s.medium.Keeps now') {p : Patch} (hp : p.name = none) :
    (revise now' e told' p o t).1 = (revise now e told p o s).1 ∧
      AgreeAt a (revise now e told p o s).2 (revise now' e told' p o t).2 := by
  have hid := Medium.tell_id hreads
  have hid' := Medium.tell_id hreads'
  -- both records could be read, so that from now on all their times can be kept
  have hkeeps := Medium.keeps_createdAt hreads
  have hkeeps' := Medium.keeps_createdAt hreads'
  rw [h.medium] at hkeeps'
  unfold Reconcile.revise
  rw [Record.version_of_content hcontent]
  split
  next => exact ⟨rfl, h⟩
  next =>
    refine ⟨rfl, h.amend hs ht hr hr' (fun _ => told.revised now p)
      (fun _ => told'.revised now' p) (Medium.key_revised hreads now hp)
      (Medium.key_revised hreads' now' hp)
      ⟨Record.content_revised hcontent _ _ p, .inr ⟨⟨?_, hnow⟩, ?_, hnow'⟩⟩ rfl rfl ?_ ?_⟩
    · exact hkeeps
    · exact hkeeps'
    · rw [← hid]
      rfl
    · rw [← hid']
      rfl

end

section

variable (h : AgreeAt e.node.address s t) (hs : s.Sound) (ht : t.Sound)
  (hnow : s.medium.Keeps now) (hnow' : s.medium.Keeps now')
include h hnow hnow'

lemma AgreeAt.settle_vacant (hr : liveAt s.records e.node.address = none)
    (hr' : liveAt t.records e.node.address = none)
    (hx : ¬ Exhausted (settle now e suffix s).1) (hx' : ¬ Exhausted (settle now' e suffix' t).1) :
    (settle now' e suffix' t).1 = (settle now e suffix s).1 ∧
      AgreeAt e.node.address (settle now e suffix s).2 (settle now' e suffix' t).2 := by
  rw [exhausted_settle_iff] at hx hx'
  simp only [Reconcile.settle, hr, hr', Medium.tell?_none]
  by_cases hk : e.kind = .lost
  · simp only [if_pos hk]
    exact ⟨trivial, h⟩
  · simp only [if_neg hk]
    cases hfree : firstFree? s.records (candidateNames e.node suffix) with
    | none => exact absurd ⟨hk, hr, hfree⟩ hx
    | some name =>
      cases hfree' : firstFree? t.records (candidateNames e.node suffix') with
      | none => exact absurd ⟨hk, hr', hfree'⟩ hx'
      | some name' =>
        exact ⟨rfl, h.add hr hr' rfl rfl ⟨rfl, .inr ⟨⟨hnow, hnow⟩, hnow', hnow'⟩⟩⟩

include hs ht in
lemma AgreeAt.settle_known {r' : Record} (hr : liveAt s.records e.node.address = some r)
    (hr' : liveAt t.records e.node.address = some r') (hakin : r.Akin s.medium r') :
    (settle now' e suffix' t).1 = (settle now e suffix s).1 ∧
      AgreeAt e.node.address (settle now e suffix s).2 (settle now' e suffix' t).2 := by
  cases hreads : s.medium.tell r with
  | error y =>
    have hreads' := hakin.tell_error hreads
    rw [← h.medium] at hreads'
    simp only [Reconcile.settle, hr, hr', Medium.tell?_error hreads, Medium.tell?_error hreads']
    exact ⟨trivial, h⟩
  | ok told =>
    obtain ⟨told', hreads', hcontent⟩ := hakin.tell_ok hreads
    rw [← h.medium] at hreads'
    have hpatch : refreshPatch told' e.node = refreshPatch told e.node :=
      refreshPatch_congr (Record.status_of_content hcontent)
        (Record.architecture_of_content hcontent) (Record.model_of_content hcontent)
    simp only [Reconcile.settle, hr, hr', Medium.tell?_ok hreads, Medium.tell?_ok hreads',
      Record.status_of_content hcontent, hpatch]
    split
    next =>
      split
      next => exact ⟨rfl, h⟩
      next => exact h.revise hs ht hr hr' hreads hreads' hcontent hnow hnow' rfl
    next =>
      split
      next => exact ⟨rfl, h.touch hs ht hr hr' hreads hreads' hakin _⟩
      next => exact h.revise hs ht hr hr' hreads hreads' hcontent hnow hnow' refreshPatch_name

include hs ht in
/-- **An event at the address** comes to the same in both. -/
theorem AgreeAt.settle (hx : ¬ Exhausted (settle now e suffix s).1)
    (hx' : ¬ Exhausted (settle now' e suffix' t).1) :
    (settle now' e suffix' t).1 = (settle now e suffix s).1 ∧
      AgreeAt e.node.address (settle now e suffix s).2 (settle now' e suffix' t).2 := by
  have hhere := h.here
  generalize hr : liveAt s.records e.node.address = x at hhere
  generalize hr' : liveAt t.records e.node.address = y at hhere
  cases hhere with
  | none => exact h.settle_vacant hnow hnow' hr hr' hx hx'
  | some hakin => exact h.settle_known hs ht hnow hnow' hr hr' hakin

end

end

/-! ### Runs -/

/-- An event to be reconciled: the name that is drawn for it if all others are taken, and how its
calls go. -/
structure Job where
  event : Event
  suffix : List Char
  course : Course

namespace Job

def draw (j : Job) : Event × List Char := (j.event, j.suffix)

def run (j : Job) (r : Repository) : Except Error Outcome × Repository :=
  j.course.run Repository.step (reconcile j.event j.suffix) r

/-- No call fails, and the clock shows times that can be kept. -/
structure Fair (m : Medium) (j : Job) : Prop where
  calm : j.course.Calm
  clock : ∀ n, m.Keeps (j.course n).1

lemma Fair.run_store {j : Job} (h : j.Fair s.medium) (hs : s.Sound) :
    ∃ now, s.medium.Keeps now ∧
      j.run s.store = ((settle now j.event j.suffix s).1,
        (settle now j.event j.suffix s).2.store) ∧
      (settle now j.event j.suffix s).2.Sound := by
  obtain ⟨k, hk⟩ := Reconcile.run_store h.calm hs j.event j.suffix
  exact ⟨_, h.clock k, hk⟩

end Job

/-- Events with what became of them. -/
abbrev Log : Type := List (Event × Except Error Outcome)

/-- Events are reconciled one after another. -/
def reconcileAll : List Job → Repository → Log × Repository
  | [], r => ([], r)
  | j :: js, r =>
    let (x, r) := j.run r
    let (log, r) := reconcileAll js r
    ((j.event, x) :: log, r)

/-- What is told of the events at an address. -/
def Log.about (a : Net.Address) (log : Log) : Log := log.filter (·.1.node.address = a)

/-- The events at an address in their order. -/
def eventsAt (a : Net.Address) (js : List Job) : List Event :=
  (js.map (·.event)).filter (·.node.address = a)

/-- No event at an address finds all names taken. -/
def Named (a : Net.Address) (js : List Job) (r : Repository) : Prop :=
  ∀ p ∈ (reconcileAll js r).1.about a, ¬ Exhausted p.2

section

variable {a : Net.Address} {j k : Job} {js ks : List Job} {q : Repository}

lemma about_cons_here (h : j.event.node.address = a) : (reconcileAll (j :: js) q).1.about a =
    (j.event, (j.run q).1) :: (reconcileAll js (j.run q).2).1.about a :=
  List.filter_cons_of_pos (by simpa using h)

lemma about_cons_beside (h : j.event.node.address ≠ a) :
    (reconcileAll (j :: js) q).1.about a = (reconcileAll js (j.run q).2).1.about a :=
  List.filter_cons_of_neg (by simpa using h)

lemma named_cons_here (h : j.event.node.address = a) :
    Named a (j :: js) q ↔ ¬ Exhausted (j.run q).1 ∧ Named a js (j.run q).2 := by
  rw [Named, about_cons_here h, List.forall_mem_cons]
  rfl

lemma named_cons_beside (h : j.event.node.address ≠ a) :
    Named a (j :: js) q ↔ Named a js (j.run q).2 := by
  rw [Named, about_cons_beside h]
  rfl

/-- Two runs have the same events at an address, and others in between. -/
inductive Matched (a : Net.Address) : List Job → List Job → Prop where
  | nil : Matched a [] []
  | left {j : Job} {js ks : List Job} (beside : j.event.node.address ≠ a)
    (rest : Matched a js ks) : Matched a (j :: js) ks
  | right {k : Job} {js ks : List Job} (beside : k.event.node.address ≠ a)
    (rest : Matched a js ks) : Matched a js (k :: ks)
  | both {j k : Job} {js ks : List Job} (same : k.event = j.event)
    (here : j.event.node.address = a) (rest : Matched a js ks) : Matched a (j :: js) (k :: ks)

lemma eventsAt_cons_here (h : j.event.node.address = a) :
    eventsAt a (j :: js) = j.event :: eventsAt a js :=
  List.filter_cons_of_pos (by simpa using h)

lemma eventsAt_cons_beside (h : j.event.node.address ≠ a) :
    eventsAt a (j :: js) = eventsAt a js :=
  List.filter_cons_of_neg (by simpa using h)

lemma matched_of_eventsAt (h : eventsAt a ks = eventsAt a js) : Matched a js ks := by
  induction js generalizing ks with
  | nil =>
    induction ks with
    | nil => exact .nil
    | cons k ks ih =>
      by_cases hk : k.event.node.address = a
      · rw [eventsAt_cons_here hk] at h
        cases h
      · rw [eventsAt_cons_beside hk] at h
        exact .right hk (ih h)
  | cons j js ihj =>
    by_cases hj : j.event.node.address = a
    · induction ks with
      | nil =>
        rw [eventsAt_cons_here hj] at h
        cases h
      | cons k ks ihk =>
        by_cases hk : k.event.node.address = a
        · rw [eventsAt_cons_here hj, eventsAt_cons_here hk] at h
          obtain ⟨hsame, hrest⟩ := List.cons.inj h
          exact .both hsame hj (ihj hrest)
        · rw [eventsAt_cons_beside hk] at h
          exact .right hk (ihk h)
    · rw [eventsAt_cons_beside hj] at h
      exact .left hj (ihj h)

/-- Two runs come to the same at an address. -/
structure Agreed (a : Net.Address) (x y : Log × Repository) : Prop where
  log : y.1.about a = x.1.about a
  stores : ∃ s t : Stock, x.2 = s.store ∧ y.2 = t.store ∧ s.Sound ∧ t.Sound ∧ AgreeAt a s t

/-- **Runs with the same events at an address** come to the same there. -/
theorem Matched.run (h : Matched a js ks) (hs : s.Sound) (ht : t.Sound) (hagree : AgreeAt a s t)
    (hjs : ∀ j ∈ js, j.Fair s.medium) (hks : ∀ k ∈ ks, k.Fair s.medium)
    (hnamed : Named a js s.store) (hnamed' : Named a ks t.store) :
    Agreed a (reconcileAll js s.store) (reconcileAll ks t.store) := by
  -- beside the address one of the runs goes on alone; at the address they go on together
  induction h generalizing s t with
  | nil => exact ⟨rfl, s, t, rfl, rfl, hs, ht, hagree⟩
  | @left j js ks beside rest ih =>
    obtain ⟨hj, hjs⟩ := List.forall_mem_cons.mp hjs
    obtain ⟨now, -, hrun, hs'⟩ := hj.run_store hs
    have hmedium := (settling_settle now j.event j.suffix s).medium
    rw [named_cons_beside beside, hrun] at hnamed
    obtain ⟨hlog, hstores⟩ := ih hs' ht (hagree.left hs beside) (by rwa [hmedium])
      (by rwa [hmedium]) hnamed hnamed'
    refine ⟨?_, ?_⟩
    · rw [about_cons_beside beside, hrun]
      exact hlog
    · simp only [reconcileAll, hrun]
      exact hstores
  | @right k js ks beside rest ih =>
    obtain ⟨hk, hks⟩ := List.forall_mem_cons.mp hks
    rw [← hagree.medium] at hk
    obtain ⟨now, -, hrun, ht'⟩ := hk.run_store ht
    rw [named_cons_beside beside, hrun] at hnamed'
    obtain ⟨hlog, hstores⟩ := ih hs ht' (hagree.right ht beside) hjs hks hnamed hnamed'
    refine ⟨?_, ?_⟩
    · rw [about_cons_beside beside, hrun]
      exact hlog
    · simp only [reconcileAll, hrun]
      exact hstores
  | @both j k js ks same here rest ih =>
    obtain ⟨hj, hjs⟩ := List.forall_mem_cons.mp hjs
    obtain ⟨hk, hks⟩ := List.forall_mem_cons.mp hks
    rw [← hagree.medium] at hk
    obtain ⟨now, hnow, hrun, hs'⟩ := hj.run_store hs
    obtain ⟨now', hnow', hrun', ht'⟩ := hk.run_store ht
    have here' : k.event.node.address = a := by rw [same, here]
    have hmedium := (settling_settle now j.event j.suffix s).medium
    rw [hagree.medium] at hnow'
    rw [named_cons_here here, hrun] at hnamed
    rw [named_cons_here here', hrun'] at hnamed'
    rw [same] at hrun' ht' hnamed'
    subst here
    obtain ⟨hsame, hagree'⟩ := hagree.settle hs ht hnow hnow' hnamed.1 hnamed'.1
    obtain ⟨hlog, hstores⟩ := ih hs' ht' hagree' (by rwa [hmedium]) (by rwa [hmedium]) hnamed.2
      hnamed'.2
    refine ⟨?_, ?_⟩
    · rw [about_cons_here rfl, about_cons_here here', hrun, hrun', same]
      exact congrArg₂ (fun x l => (j.event, x) :: l) hsame hlog
    · simp only [reconcileAll, hrun, hrun']
      exact hstores

end

/-! ### Events alone -/

/-- A name that is free in company is free alone. -/
lemma AgreeAt.not_exhausted (h : AgreeAt e.node.address s t) (now' : Time.Instant)
    (hbeside : namesBeside e.node.address t.records ⊆ namesBeside e.node.address s.records)
    (hx : ¬ Exhausted (Reconcile.settle now e suffix s).1) :
    ¬ Exhausted (Reconcile.settle now' e suffix t).1 := by
  rw [exhausted_settle_iff] at hx ⊢
  rintro ⟨hk, hr', hfree⟩
  have hhere := h.here
  rw [hr'] at hhere
  generalize hr : liveAt s.records e.node.address = y at hhere
  cases hhere
  refine hx ⟨hk, hr, ?_⟩
  -- a name that is taken alone is taken at another address, and so it is in company
  rw [firstFree?, List.find?_eq_none] at hfree ⊢
  intro name hname
  have hnamed := hfree name hname
  simp only [Bool.not_eq_true, Bool.not_eq_false'] at hnamed ⊢
  rw [isNamed_iff_beside hr'] at hnamed
  rw [isNamed_iff_beside hr]
  exact hbeside hnamed

section

variable {a : Net.Address} {js ks : List Job}

/-- The events at an address with the names that are drawn for them. -/
def drawsAt (a : Net.Address) (js : List Job) : List (Event × List Char) :=
  (js.map Job.draw).filter (·.1.node.address = a)

/-- **Who finds a name in company finds one alone.** -/
lemma named_alone (h : ks.map Job.draw = drawsAt a js) (hs : s.Sound) (ht : t.Sound)
    (hagree : AgreeAt a s t) (hbeside : namesBeside a t.records ⊆ namesBeside a s.records)
    (hjs : ∀ j ∈ js, j.Fair s.medium) (hks : ∀ k ∈ ks, k.Fair s.medium)
    (hnamed : Named a js s.store) : Named a ks t.store := by
  -- in company the names beside the address only grow, and alone they stay as they are
  induction js generalizing ks s t with
  | nil =>
    obtain rfl := List.map_eq_nil_iff.mp h
    exact hnamed
  | cons j js ih =>
    obtain ⟨hj, hjs⟩ := List.forall_mem_cons.mp hjs
    obtain ⟨now, hnow, hrun, hs'⟩ := hj.run_store hs
    have hmedium := (settling_settle now j.event j.suffix s).medium
    have haffects := affects_settle now j.event j.suffix s
    by_cases here : j.event.node.address = a
    · have hcons : drawsAt a (j :: js) = j.draw :: drawsAt a js :=
        List.filter_cons_of_pos (by simp [Job.draw, here])
      rw [hcons] at h
      obtain ⟨k, ks, rfl, hdraw, h⟩ := List.map_eq_cons_iff.mp h
      obtain ⟨hsame, hsuffix⟩ := Prod.mk.inj hdraw
      obtain ⟨hk, hks⟩ := List.forall_mem_cons.mp hks
      rw [← hagree.medium] at hk
      obtain ⟨now', hnow', hrun', ht'⟩ := hk.run_store ht
      have here' : k.event.node.address = a := by rw [hsame, here]
      have haffects' := affects_settle now' j.event j.suffix t
      rw [hagree.medium] at hnow'
      rw [hsame, hsuffix] at hrun' ht'
      rw [named_cons_here here, hrun] at hnamed
      rw [named_cons_here here', hrun']
      subst here
      have hx' := hagree.not_exhausted now' hbeside hnamed.1
      obtain ⟨-, hagree'⟩ := hagree.settle hs ht hnow hnow' hnamed.1 hx'
      refine ⟨hx', ih h hs' ht' hagree' ?_ (by rwa [hmedium]) (by rwa [hmedium]) hnamed.2⟩
      rw [haffects.namesBeside_eq hs.orderly, haffects'.namesBeside_eq ht.orderly]
      exact hbeside
    · have hcons : drawsAt a (j :: js) = drawsAt a js :=
        List.filter_cons_of_neg (by simp [Job.draw, here])
      rw [named_cons_beside here, hrun] at hnamed
      exact ih (by rwa [hcons] at h) hs' ht (hagree.left hs here)
        (List.Subset.trans hbeside (haffects.namesBeside_subset hs.orderly)) (by rwa [hmedium])
        (by rwa [hmedium]) hnamed

lemma eventsAt_alone (h : ks.map Job.draw = drawsAt a js) : eventsAt a ks = eventsAt a js := by
  have hevents : ∀ js : List Job, js.map (·.event) = (js.map Job.draw).map Prod.fst := fun js => by
    rw [List.map_map]
    rfl
  rw [eventsAt, eventsAt, hevents ks, hevents js, h, drawsAt]
  simp [List.filter_map, List.filter_filter, Function.comp_def]

/-- **What becomes of the events at an address** does not depend on those at others, nor does what
the record there says, if no name is missing. With the same names drawn, none is missing where
there are no events but these. -/
theorem reconcileAll_at {m : Medium} {r : Repository} {calls : List (Time.Instant × Operation)}
    (hr : r.Reached m calls) (hjs : ∀ j ∈ js, j.Fair m) (hks : ∀ k ∈ ks, k.Fair m)
    (hnamed : Named a js r)
    (h : eventsAt a ks = eventsAt a js ∧ Named a ks r ∨ ks.map Job.draw = drawsAt a js) :
    (reconcileAll ks r).1.about a = (reconcileAll js r).1.about a ∧
      ∀ now, ((reconcileAll ks r).2.step now (.findByAddress a)).1.map (Option.map Record.content) =
        ((reconcileAll js r).2.step now (.findByAddress a)).1.map (Option.map Record.content) := by
  obtain ⟨s, rfl, rfl, hs, -⟩ := hr.exists_stock
  have hagree := AgreeAt.same a s
  have hmatched : eventsAt a ks = eventsAt a js ∧ Named a ks s.store := by
    rcases h with h | h
    · exact h
    · exact ⟨eventsAt_alone h,
        named_alone h hs hs hagree (List.Subset.refl _) hjs hks hnamed⟩
  obtain ⟨hlog, s', t', hs', ht', hsound, hsound', hagree'⟩ :=
    (matched_of_eventsAt hmatched.1).run hs hs hagree hjs hks hnamed hmatched.2
  refine ⟨hlog, fun now => ?_⟩
  rw [hs', ht', hsound.step_find, hsound'.step_find]
  exact hagree'.tells

end

/-- A node that calls itself n1. -/
def sight (kind : EventKind) (a : Net.Address) : Event :=
  ⟨kind, Observation.bare "a" "n1" a 9091 default⟩

def job (e : Event) : Job := ⟨e, [], fun _ => (default, none)⟩

def withoutOthers : List Job :=
  [job (sight .discovered (.v4 10 0 0 1)), job (sight .lost (.v4 10 0 0 1))]

def inCompany : List Job := job (sight .discovered (.v4 10 0 0 2)) :: withoutOthers

theorem reconcileAll_at_in_company :
    (Repository.inTable true).Reached .table [] ∧ (∀ j ∈ inCompany, j.Fair .table) ∧
      (∀ k ∈ withoutOthers, k.Fair .table) ∧
      Named (.v4 10 0 0 1) inCompany (.inTable true) ∧
      withoutOthers.map Job.draw = drawsAt (.v4 10 0 0 1) inCompany ∧
      (reconcileAll withoutOthers (.inTable true)).1.about (.v4 10 0 0 1) =
        (reconcileAll inCompany (.inTable true)).1.about (.v4 10 0 0 1) ∧
      ∀ now, ((reconcileAll withoutOthers (.inTable true)).2.step now
          (.findByAddress (.v4 10 0 0 1))).1.map (Option.map Record.content) =
        ((reconcileAll inCompany (.inTable true)).2.step now
          (.findByAddress (.v4 10 0 0 1))).1.map (Option.map Record.content) := by
  have hr : (Repository.inTable true).Reached .table [] :=
    ⟨_, .table true, fun _ => by decide, rfl⟩
  have hplain : (default : Time.Instant).HasPlainYear := by decide
  have hfair : ∀ e, (job e).Fair .table := fun e => ⟨fun _ => rfl, fun _ => hplain⟩
  have hjs : ∀ j ∈ inCompany, j.Fair .table := by simp [inCompany, withoutOthers, hfair]
  have hks : ∀ k ∈ withoutOthers, k.Fair .table := by simp [withoutOthers, hfair]
  have hlog : (reconcileAll inCompany (.inTable true)).1.about (.v4 10 0 0 1) =
      [(sight .discovered (.v4 10 0 0 1), .ok .created),
        (sight .lost (.v4 10 0 0 1), .ok .markedUnknown)] := rfl
  have hnamed : Named (.v4 10 0 0 1) inCompany (.inTable true) := by
    rw [Named, hlog]
    simp [Exhausted]
  have hdraws : withoutOthers.map Job.draw = drawsAt (.v4 10 0 0 1) inCompany := rfl
  exact ⟨hr, hjs, hks, hnamed, hdraws, reconcileAll_at hr hjs hks hnamed (.inr hdraws)⟩

end NodeWatch.Reconcile
