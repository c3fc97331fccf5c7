/-!
Programs that work by asking: each is done, or asks one question and goes on with the answer. The
same program runs on any state that can answer, alone or in steps between those of others.
-/

namespace NodeWatch

inductive Program (Q : Type) (A : Q → Type) (α : Type) where
  | done (a : α)
  | ask (q : Q) (next : A q → Program Q A α)

namespace Program

variable {Q : Type} {A : Q → Type} {α β σ : Type}

def bind : Program Q A α → (α → Program Q A β) → Program Q A β
  | done a, f => f a
  | ask q next, f => ask q fun a => (next a).bind f

instance : Monad (Program Q A) where
  pure := done
  bind := bind

/-- The program of one question. -/
def call (q : Q) : Program Q A (A q) := ask q done

/-- All steps of a program in a row, on a state that answers its questions. -/
def run (answer : (q : Q) → σ → A q × σ) : Program Q A α → σ → α × σ
  | done a, s => (a, s)
  | ask q next, s =>
    let (a, s) := answer q s
    (next a).run answer s

@[simp] theorem run_done (answer : (q : Q) → σ → A q × σ) (a : α) (s : σ) :
    (done a : Program Q A α).run answer s = (a, s) := rfl

@[simp] theorem run_ask (answer : (q : Q) → σ → A q × σ) (q : Q) (next : A q → Program Q A α)
    (s : σ) :
    (ask q next).run answer s = (next (answer q s).1).run answer (answer q s).2 := rfl

theorem run_call_bind (answer : (q : Q) → σ → A q × σ) (q : Q) (f : A q → Program Q A β) (s : σ) :
    (call q >>= f).run answer s = (f (answer q s).1).run answer (answer q s).2 := rfl

theorem run_bind (answer : (q : Q) → σ → A q × σ) (p : Program Q A α) (f : α → Program Q A β)
    (s : σ) :
    (p.bind f).run answer s = (f (p.run answer s).1).run answer (p.run answer s).2 := by
  induction p generalizing s with
  | done a => rfl
  | ask q next ih => simp [bind, ih]

/-! ### Several programs on one state -/

/-- The program at a place asks its question, if it has one. -/
def turn (answer : (q : Q) → σ → A q × σ) (i : Nat) (ps : List (Program Q A α)) (s : σ) :
    List (Program Q A α) × σ :=
  match ps[i]? with
  | some (ask q next) =>
    let (a, s) := answer q s
    (ps.set i (next a), s)
  | _ => (ps, s)

/-- The programs take turns; with each turn comes what the state takes from outside. -/
def interleave {T : Type} (answer : T → (q : Q) → σ → A q × σ) :
    List (Nat × T) → List (Program Q A α) → σ → List (Program Q A α) × σ
  | [], ps, s => (ps, s)
  | (i, t) :: turns, ps, s =>
    let (ps, s) := turn (answer t) i ps s
    interleave answer turns ps s

end Program

end NodeWatch
