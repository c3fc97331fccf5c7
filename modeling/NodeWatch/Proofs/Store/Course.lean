import NodeWatch.Proofs.Program
import NodeWatch.Store.Course

/-!
Programs whose calls go as a course says.
-/

namespace NodeWatch.Store.Course

variable {σ τ α : Type} {c : Course} {n : Nat}

/-- No call fails of itself. -/
def Calm (c : Course) : Prop := ∀ n, (c n).2 = none

section

variable {answer : Time.Instant → (op : Operation) → σ → op.Answer × σ} {s : σ}

/-- A program from its `n`th call on. -/
def runFrom (c : Course) (answer : Time.Instant → (op : Operation) → σ → op.Answer × σ) (n : Nat)
    (p : Session α) (s : σ) : α × σ :=
  let (a, s, _) := p.run (c.step answer) (s, n)
  (a, s)

lemma run_eq_runFrom (p : Session α) (s : σ) : c.run answer p s = c.runFrom answer 0 p s := rfl

lemma Calm.runFrom_ask (hc : c.Calm) (q : Operation) (next : q.Answer → Session α) :
    c.runFrom answer n (.ask q next) s =
      c.runFrom answer (n + 1) (next (answer (c n).1 q s).1) (answer (c n).1 q s).2 := by
  have hstep : c.step answer q (s, n) =
      ((answer (c n).1 q s).1, (answer (c n).1 q s).2, n + 1) := by
    rw [step]
    rcases hcn : c n with ⟨now, _ | x⟩
    · rfl
    · have := hc n
      rw [hcn] at this
      cases this
  rw [runFrom, Program.run_ask, hstep]
  rfl

end

section

variable {P : Operation → Prop} {R : σ → τ → Prop}
  {f : Time.Instant → (op : Operation) → σ → op.Answer × σ}
  {g : Time.Instant → (op : Operation) → τ → op.Answer × τ}

/-- What is alike is alike under a course, also where calls fail. -/
lemma alike (h : ∀ n, Program.Alike P R (f (c n).1) (g (c n).1)) :
    Program.Alike P (fun (x : σ × Nat) (y : τ × Nat) => R x.1 y.1 ∧ x.2 = y.2) (c.step f)
      (c.step g) := by
  rintro op ⟨s, n⟩ ⟨t, _⟩ hop ⟨hst, rfl⟩
  have hn := h n
  rcases hcn : c n with ⟨now, _ | x⟩
  · rw [hcn] at hn
    obtain ⟨ha, hR⟩ := hn op s t hop hst
    simp only [Course.step, hcn]
    exact ⟨ha, hR, trivial⟩
  · simp only [Course.step, hcn]
    exact ⟨trivial, hst, trivial⟩

lemma run_alike (h : ∀ n, Program.Alike P R (f (c n).1) (g (c n).1)) {p : Session α}
    (hp : p.Asks P) {s : σ} {t : τ} (hst : R s t) :
    (c.run f p s).1 = (c.run g p t).1 ∧ R (c.run f p s).2 (c.run g p t).2 := by
  obtain ⟨ha, hR, -⟩ := (alike h).run hp (s := (s, 0)) (t := (t, 0)) ⟨hst, rfl⟩
  exact ⟨ha, hR⟩

end

end NodeWatch.Store.Course
