import NodeWatch.Proofs.Reconcile.Idempotent
import NodeWatch.Proofs.Store.Vacancy

/-!
The name of a node that is registered.

Nobody looks whether a name is free. The names are tried one after the other, and the answers of the
store decide: the record gets the first name that no live record has.
-/

namespace NodeWatch.Reconcile

open Store

/-- A live record has the name. -/
def IsTaken (r : Repository) (name : List Char) : Prop := r.HasName (String.ofList name)

/-- The first name that is not taken. -/
inductive FirstFree (r : Repository) : List (List Char) → List Char → Prop where
  | here {name : List Char} {names : List (List Char)} (free : ¬ IsTaken r name) :
    FirstFree r (name :: names) name
  | later {taken name : List Char} {names : List (List Char)} (isTaken : IsTaken r taken)
    (rest : FirstFree r names name) : FirstFree r (taken :: names) name

/-- A record was added under the name at one of the times. -/
def Registers (c : Course) (e : Event) (r : Repository) (name : List Char)
    (y : Except Error Outcome × Repository) : Prop :=
  ∃ k, y = (.ok .created, r.add (r.next (c k).1 (newRecord e.node name)))

variable {c : Course} {r : Repository} {e : Event} {suffix name : List Char}
  {names : List (List Char)} {n : Nat}

lemma exists_firstFree (r : Repository) (names : List (List Char)) :
    (∃ name, FirstFree r names name) ∨ ∀ name ∈ names, IsTaken r name := by
  induction names with
  | nil => exact .inr nofun
  | cons x names ih =>
    by_cases hx : IsTaken r x
    · rcases ih with ⟨name, h⟩ | h
      · exact .inl ⟨name, .later hx h⟩
      · exact .inr (List.forall_mem_cons.mpr ⟨hx, h⟩)
    · exact .inl ⟨x, .here hx⟩

lemma candidateNames_eq (o : Observation) (suffix : List Char) : candidateNames o suffix =
    baseName o :: ((if NodeName.dashed o.address <:+ baseName o then []
      else [NodeName.withSuffix (baseName o) (NodeName.dashed o.address)]) ++
        [NodeName.withSuffix (baseName o) suffix]) := by
  simp only [candidateNames, List.isSuffixOf_iff_suffix]
  rfl

section

variable (hc : c.Calm) (hs : r.Serves) (hf : r.Fresh) (ha : ¬ r.HasAddress e.node.address)
include hc hs hf ha

/-- A name that is taken is passed over. -/
lemma runFrom_create_taken (h : IsTaken r name) :
    c.runFrom Repository.step n (create e (name :: names)) r =
      c.runFrom Repository.step (n + 1) (create e names) r := by
  rw [create_cons, hc.runFrom_ask, hs.step_create_named (n := newRecord e.node name) hf ha h]
  rfl

lemma runFrom_create_free (h : ¬ IsTaken r name) :
    Registers c e r name (c.runFrom Repository.step n (create e (name :: names)) r) := by
  rw [create_cons, hc.runFrom_ask, hs.step_create_free (n := newRecord e.node name) hf ha h]
  exact ⟨n, rfl⟩

lemma registers_of_firstFree (h : FirstFree r names name) :
    Registers c e r name (c.runFrom Repository.step n (create e names) r) := by
  induction h generalizing n with
  | here free => exact runFrom_create_free hc hs hf ha free
  | later isTaken rest ih =>
    rw [runFrom_create_taken hc hs hf ha isTaken]
    exact ih

lemma exhausted_of_taken (h : ∀ name ∈ names, IsTaken r name) :
    c.runFrom Repository.step n (create e names) r =
      (.error (.nameExhausted e.node.address), r) := by
  induction names generalizing n with
  | nil => rfl
  | cons name names ih =>
    obtain ⟨hname, hnames⟩ := List.forall_mem_cons.mp h
    rw [runFrom_create_taken hc hs hf ha hname]
    exact ih hnames

lemma exhausted_iff : (c.runFrom Repository.step n (create e names) r).1 =
    .error (.nameExhausted e.node.address) ↔ ∀ name ∈ names, IsTaken r name := by
  constructor
  · intro herror
    refine (exists_firstFree r names).resolve_left fun ⟨name, h⟩ => ?_
    obtain ⟨k, hk⟩ := registers_of_firstFree (n := n) hc hs hf ha h
    rw [hk] at herror
    cases herror
  · intro h
    rw [exhausted_of_taken hc hs hf ha h]

end

/-- **A node that is new gets the first name that is free**: its own, that with its address unless
it ends with it, and that with the random end, in this order. Names that only deleted records have
are free. Only if all of them are taken is nothing registered, and then nothing is changed. -/
theorem registers_first_free {c : Course} (hc : c.Calm) {r : Repository} (hs : r.Serves)
    (hf : r.Fresh) {e : Event} (he : Seen e) (ha : ¬ r.HasAddress e.node.address)
    (suffix : List Char) :
    let y := c.run Repository.step (reconcile e suffix) r
    let base := baseName e.node
    let dashed := NodeName.dashed e.node.address
    let addressed := NodeName.withSuffix base dashed
    let last := NodeName.withSuffix base suffix
    (¬ IsTaken r base → Registers c e r base y) ∧
    (IsTaken r base → ¬ dashed <:+ base → ¬ IsTaken r addressed → Registers c e r addressed y) ∧
    (IsTaken r base → dashed <:+ base ∨ IsTaken r addressed → ¬ IsTaken r last →
      Registers c e r last y) ∧
    (y.1 = .error (.nameExhausted e.node.address) ↔
      IsTaken r base ∧ (dashed <:+ base ∨ IsTaken r addressed) ∧ IsTaken r last) ∧
    (y.1 = .error (.nameExhausted e.node.address) → y.2 = r) := by
  intro y base dashed addressed last
  have hy : y = c.runFrom Repository.step 1 (create e (candidateNames e.node suffix)) r := by
    change c.runFrom Repository.step 0 (reconcile e suffix) r = _
    rw [reconcile_seen he, hc.runFrom_ask, hs.step_findByAddress_of_not ha]
  have hnames : candidateNames e.node suffix =
      base :: ((if dashed <:+ base then [] else [addressed]) ++ [last]) :=
    candidateNames_eq e.node suffix
  have hregisters : ∀ name, FirstFree r (candidateNames e.node suffix) name →
      Registers c e r name y := fun name h => hy ▸ registers_of_firstFree hc hs hf ha h
  have hall : (∀ name ∈ candidateNames e.node suffix, IsTaken r name) ↔
      IsTaken r base ∧ (dashed <:+ base ∨ IsTaken r addressed) ∧ IsTaken r last := by
    rw [hnames]
    by_cases hends : dashed <:+ base <;> simp [hends]
  refine ⟨fun h => hregisters base ?_, fun hb hd h => hregisters addressed ?_,
    fun hb hd h => hregisters last ?_, ?_, fun herror => ?_⟩
  · rw [hnames]
    exact .here h
  · rw [hnames, if_neg hd]
    exact .later hb (.here h)
  · rw [hnames]
    split
    next => exact .later hb (.here h)
    next hends => exact .later hb (.later (hd.resolve_left hends) (.here h))
  · rw [hy, exhausted_iff hc hs hf ha, hall]
  · rw [hy, exhausted_iff hc hs hf ha] at herror
    rw [hy, exhausted_of_taken hc hs hf ha herror]

/-- One has the name of the node; another has had it with the address of the node, and is
deleted. -/
def namesakes : List (Time.Instant × Operation) :=
  [(default, .create { name := "n1", address := .v4 10 0 0 2, lastSeen := default }),
    (default, .create { name := "n1-10-0-0-1", address := .v4 10 0 0 3, lastSeen := default }),
    (default, .delete "#2")]

theorem registers_arrival_with_address :
    let r := Repository.inMemory.after namesakes
    alwaysNow.Calm ∧ r.Serves ∧ r.Fresh ∧ Seen arrival ∧ ¬ r.HasAddress arrival.node.address ∧
      Registers alwaysNow arrival r "n1-10-0-0-1".toList
        (alwaysNow.run Repository.step (reconcile arrival []) r) := by
  intro r
  have hc : alwaysNow.Calm := fun _ => rfl
  have hs : r.Serves := ⟨rfl, rfl⟩
  have hf : r.Fresh := by
    change ∀ x ∈ _, _
    decide
  have he : Seen arrival := nofun
  have ha : ¬ r.HasAddress arrival.node.address := by
    change ¬ ∃ x ∈ _, _
    decide
  have hbase : IsTaken r (baseName arrival.node) := by
    change ∃ x ∈ _, _
    decide
  have hends : ¬ NodeName.dashed arrival.node.address <:+ baseName arrival.node := by decide
  have hname : NodeName.withSuffix (baseName arrival.node) (NodeName.dashed arrival.node.address) =
      "n1-10-0-0-1".toList := by decide
  have hfree : ¬ IsTaken r (NodeName.withSuffix (baseName arrival.node)
      (NodeName.dashed arrival.node.address)) := by
    change ¬ ∃ x ∈ _, _
    decide
  exact ⟨hc, hs, hf, he, ha,
    hname ▸ (registers_first_free hc hs hf he ha []).2.1 hbase hends hfree⟩

end NodeWatch.Reconcile
