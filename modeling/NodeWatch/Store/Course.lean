import NodeWatch.Store.Repository

/-!
Calls on a store that is out of order now and then.
-/

namespace NodeWatch.Store

/-- How it goes with the calls that a program makes one after the other: the time of each, and the
error it fails with if it does. -/
abbrev Course : Type := Nat → Time.Instant × Option Error

namespace Course

variable {σ : Type} (c : Course) (answer : Time.Instant → (op : Operation) → σ → op.Answer × σ)

/-- The store and the number of calls made on it. A call that fails has no effect. -/
def step (op : Operation) : σ × Nat → op.Answer × σ × Nat
  | (s, n) =>
    match c n with
    | (_, some e) => (.error e, s, n + 1)
    | (now, none) =>
      let (a, s) := answer now op s
      (a, s, n + 1)

/-- A program whose calls go as the course says. -/
def run {α : Type} (p : Session α) (s : σ) : α × σ :=
  let (a, s, _) := p.run (c.step answer) (s, 0)
  (a, s)

end Course

end NodeWatch.Store
