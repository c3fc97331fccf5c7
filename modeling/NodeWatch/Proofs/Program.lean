import Mathlib.Data.List.Basic
import Mathlib.Tactic.Common
import NodeWatch.Program

/-!
Programs that run alike on two states, and programs that take turns.
-/

namespace NodeWatch.Program

variable {Q : Type} {A : Q → Type} {α β σ τ : Type}

/-- All questions that the program may ask, whatever the answers are, satisfy `P`. -/
inductive Asks (P : Q → Prop) : Program Q A α → Prop where
  | done (a : α) : Asks P (.done a)
  | ask {q : Q} {next : A q → Program Q A α} (here : P q) (later : ∀ a, Asks P (next a)) :
    Asks P (.ask q next)

variable {P : Q → Prop}

lemma Asks.bind {p : Program Q A α} (hp : p.Asks P) {f : α → Program Q A β}
    (hf : ∀ a, (f a).Asks P) : (p >>= f).Asks P := by
  induction hp with
  | done a => exact hf a
  | ask here later ih => exact .ask here ih

/-- One step of a program. -/
def once (answer : (q : Q) → σ → A q × σ) : Program Q A α → σ → Program Q A α × σ
  | done a, s => (done a, s)
  | ask q next, s => (next (answer q s).1, (answer q s).2)

@[simp] lemma once_done (answer : (q : Q) → σ → A q × σ) (a : α) (s : σ) :
    once answer (done a : Program Q A α) s = (done a, s) := rfl

@[simp] lemma once_ask (answer : (q : Q) → σ → A q × σ) (q : Q) (next : A q → Program Q A α)
    (s : σ) : once answer (ask q next) s = (next (answer q s).1, (answer q s).2) := rfl

lemma Asks.once {answer : (q : Q) → σ → A q × σ} {p : Program Q A α} (h : p.Asks P) (s : σ) :
    (p.once answer s).1.Asks P := by
  cases h with
  | done a => exact .done a
  | ask here later => exact later _

lemma turn_of_some {answer : (q : Q) → σ → A q × σ} {i : Nat} {ps : List (Program Q A α)}
    {p : Program Q A α} (h : ps[i]? = some p) (s : σ) :
    turn answer i ps s = (ps.set i (p.once answer s).1, (p.once answer s).2) := by
  unfold turn
  rw [h]
  cases p with
  | done a =>
    obtain ⟨hi, hp⟩ := List.getElem?_eq_some_iff.mp h
    have hset : ps.set i (done a) = ps := by rw [← hp, List.set_getElem_self]
    rw [once_done, hset]
  | ask q next => rfl

lemma turn_of_none {answer : (q : Q) → σ → A q × σ} {i : Nat} {ps : List (Program Q A α)}
    (h : ps[i]? = none) (s : σ) : turn answer i ps s = (ps, s) := by
  unfold turn
  rw [h]

lemma interleave_append {T : Type} (answer : T → (q : Q) → σ → A q × σ)
    (turns turns' : List (Nat × T)) (ps : List (Program Q A α)) (s : σ) :
    interleave answer (turns ++ turns') ps s =
      interleave answer turns' (interleave answer turns ps s).1
        (interleave answer turns ps s).2 := by
  induction turns generalizing ps s with
  | nil => rfl
  | cons u turns ih => exact ih _ _

lemma interleave_concat {T : Type} (answer : T → (q : Q) → σ → A q × σ) (turns : List (Nat × T))
    (u : Nat × T) (ps : List (Program Q A α)) (s : σ) :
    interleave answer (turns ++ [u]) ps s =
      turn (answer u.2) u.1 (interleave answer turns ps s).1
        (interleave answer turns ps s).2 :=
  interleave_append answer turns [u] ps s

@[simp] lemma length_turn (answer : (q : Q) → σ → A q × σ) (i : Nat) (ps : List (Program Q A α))
    (s : σ) : (turn answer i ps s).1.length = ps.length := by
  unfold turn
  split
  · exact List.length_set
  · rfl

/-! ### What a run comes through -/

/-- A question that was asked, and the state before it and after it. -/
structure Move (Q σ : Type) where
  question : Q
  before : σ
  after : σ

/-- The questions of a run. -/
def trail (answer : (q : Q) → σ → A q × σ) : Program Q A α → σ → List (Move Q σ)
  | done _, _ => []
  | ask q next, s => ⟨q, s, (answer q s).2⟩ :: (next (answer q s).1).trail answer (answer q s).2

lemma trail_ask (answer : (q : Q) → σ → A q × σ) (q : Q) (next : A q → Program Q A α) (s : σ) :
    (ask q next).trail answer s =
      ⟨q, s, (answer q s).2⟩ :: (next (answer q s).1).trail answer (answer q s).2 := rfl

/-- Of the questions before the last one, one may be the first. -/
lemma mem_dropLast_trail_ask {answer : (q : Q) → σ → A q × σ} {q : Q}
    {next : A q → Program Q A α} {s : σ} {x : Move Q σ}
    (h : x ∈ ((ask q next).trail answer s).dropLast) : x = ⟨q, s, (answer q s).2⟩ ∨
      x ∈ ((next (answer q s).1).trail answer (answer q s).2).dropLast := by
  rw [trail_ask] at h
  cases hrest : (next (answer q s).1).trail answer (answer q s).2 with
  | nil =>
    rw [hrest] at h
    cases h
  | cons y rest =>
    rw [hrest, List.dropLast_cons_cons, List.mem_cons, ← hrest] at h
    rwa [← hrest]

/-! ### One after the other -/

/-- The programs at some places run one after the other, each all its steps in a row, and give the
results at these places. -/
inductive Serially {T : Type} (answer : T → (q : Q) → σ → A q × σ) (ps : List (Program Q A α))
    (results : List α) : List (Nat × T) → σ → σ → Prop where
  | nil (s : σ) : Serially answer ps results [] s s
  | cons {i : Nat} {t : T} {order : List (Nat × T)} {p : Program Q A α} {a : α} {s s' s'' : σ}
    (program : ps[i]? = some p) (result : results[i]? = some a)
    (runs : p.run (answer t) s = (a, s')) (rest : Serially answer ps results order s' s'') :
    Serially answer ps results ((i, t) :: order) s s''

/-! ### Two states -/

section

variable {R : σ → τ → Prop} {f : (q : Q) → σ → A q × σ} {g : (q : Q) → τ → A q × τ}

/-- Related states answer alike and stay related. -/
def Alike (P : Q → Prop) (R : σ → τ → Prop) (f : (q : Q) → σ → A q × σ)
    (g : (q : Q) → τ → A q × τ) : Prop :=
  ∀ q s t, P q → R s t → (f q s).1 = (g q t).1 ∧ R (f q s).2 (g q t).2

lemma Alike.run (h : Alike P R f g) {p : Program Q A α} (hp : p.Asks P) {s : σ} {t : τ}
    (hst : R s t) : (p.run f s).1 = (p.run g t).1 ∧ R (p.run f s).2 (p.run g t).2 := by
  induction hp generalizing s t with
  | done a => exact ⟨rfl, hst⟩
  | @ask q next here later ih =>
    obtain ⟨ha, hR⟩ := h q s t here hst
    rw [run_ask, run_ask, ha]
    exact ih _ hR

lemma Alike.turn (h : Alike P R f g) {ps : List (Program Q A α)} (hps : ∀ p ∈ ps, p.Asks P)
    (i : Nat) {s : σ} {t : τ} (hst : R s t) :
    (turn f i ps s).1 = (turn g i ps t).1 ∧ R (turn f i ps s).2 (turn g i ps t).2 ∧
      ∀ p ∈ (turn f i ps s).1, p.Asks P := by
  unfold Program.turn
  cases hi : ps[i]? with
  | none => exact ⟨rfl, hst, hps⟩
  | some p =>
    cases p with
    | done a => exact ⟨rfl, hst, hps⟩
    | ask q next =>
      obtain ⟨here, later⟩ : P q ∧ ∀ a, (next a).Asks P := by
        cases hps _ (List.mem_of_getElem? hi) with
        | ask here later => exact ⟨here, later⟩
      obtain ⟨ha, hR⟩ := h q s t here hst
      refine ⟨by simp only [ha], hR, fun p hp => ?_⟩
      rcases List.mem_or_eq_of_mem_set hp with hp | rfl
      · exact hps p hp
      · exact later _

end

lemma Alike.interleave {T : Type} {R : σ → τ → Prop} {f : T → (q : Q) → σ → A q × σ}
    {g : T → (q : Q) → τ → A q × τ} (turns : List (Nat × T))
    (h : ∀ u ∈ turns, Alike P R (f u.2) (g u.2)) {ps : List (Program Q A α)}
    (hps : ∀ p ∈ ps, p.Asks P) {s : σ} {t : τ} (hst : R s t) :
    (interleave f turns ps s).1 = (interleave g turns ps t).1 ∧
      R (interleave f turns ps s).2 (interleave g turns ps t).2 := by
  induction turns generalizing ps s t with
  | nil => exact ⟨rfl, hst⟩
  | cons u turns ih =>
    obtain ⟨hsame, hR, hasks⟩ := (h u (by simp)).turn hps u.1 hst
    simp only [Program.interleave]
    rw [← hsame]
    exact ih (fun v hv => h v (by simp [hv])) hasks hR

lemma Serially.split {T : Type} {answer : T → (q : Q) → σ → A q × σ} {ps : List (Program Q A α)}
    {results : List α} {front back : List (Nat × T)} {s s'' : σ}
    (h : Serially answer ps results (front ++ back) s s'') :
    ∃ s', Serially answer ps results front s s' ∧ Serially answer ps results back s' s'' := by
  induction front generalizing s with
  | nil => exact ⟨s, .nil s, h⟩
  | cons u front ih =>
    cases h with
    | cons program result runs rest =>
      obtain ⟨s', hfront, hback⟩ := ih rest
      exact ⟨s', .cons program result runs hfront, hback⟩

lemma Serially.alike {T : Type} {R : σ → τ → Prop} {f : T → (q : Q) → σ → A q × σ}
    {g : T → (q : Q) → τ → A q × τ} {ps : List (Program Q A α)} {results : List α}
    {order : List (Nat × T)} (h : ∀ u ∈ order, Alike P R (f u.2) (g u.2))
    (hps : ∀ p ∈ ps, p.Asks P) {t t' : τ} (ht : Serially g ps results order t t') {s : σ}
    (hst : R s t) : ∃ s', Serially f ps results order s s' ∧ R s' t' := by
  induction ht generalizing s with
  | nil t => exact ⟨s, .nil s, hst⟩
  | @cons i u order p a t t' t'' program result runs rest ih =>
    obtain ⟨ha, hR⟩ := (h (i, u) (by simp)).run (hps p (List.mem_of_getElem? program)) hst
    rw [runs] at ha hR
    obtain ⟨s', hs', hR'⟩ := ih (fun v hv => h v (by simp [hv])) hR
    exact ⟨s', .cons program result (Prod.ext ha rfl) hs', hR'⟩

end NodeWatch.Program
