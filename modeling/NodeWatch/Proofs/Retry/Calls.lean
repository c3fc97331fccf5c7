import Mathlib.Order.Bounds.Basic
import NodeWatch.Retry.Run

/-!
Which calls are made, and when.

The calls end with the first one that succeeds, fails for good, or is the last that the policy
allows. Each is made a delay after the outcome of the one before it. Their numbers stay below the
bound of the policy, so that a counter of thirty-two bits counts them as well.
-/

namespace NodeWatch.Retry

variable {ε α : Type} {p : Policy} {retryable : ε → Bool} {outcome : Nat → Except ε α}
  {takes : Nat → Nat} {left attempt clock : Nat}

/-- The calls end with this one, if they come to it. -/
def Ends (p : Policy) (retryable : ε → Bool) (outcome : Nat → Except ε α) (n : Nat) : Prop :=
  (∃ a, outcome n = .ok a) ∨ (∃ e, outcome n = .error e ∧ retryable e = false) ∨ n = p.maxRetries

/-- When a call is made, if the calls come to it. -/
def madeAt (p : Policy) (takes : Nat → Nat) : Nat → Nat
  | 0 => 0
  | n + 1 => madeAt p takes n + takes n + p.delayMs (n + 1)

/-! ### One call -/

lemma runFrom_of_ends (hleft : attempt + left = p.maxRetries)
    (hends : Ends p retryable outcome attempt) :
    runFrom p retryable outcome takes left attempt clock =
      ⟨outcome attempt, [clock + p.delayMs attempt]⟩ := by
  unfold runFrom
  cases hout : outcome attempt with
  | ok a => rfl
  | error e =>
    by_cases hr : retryable e = false
    · simp [hr]
    · -- what ends the calls can only be their number
      have hlast : attempt = p.maxRetries := by
        rcases hends with ⟨a, ha⟩ | ⟨e', he, hr'⟩ | hlast
        · simp [hout] at ha
        · rw [hout, Except.error.injEq] at he
          exact absurd (he ▸ hr') hr
        · exact hlast
      obtain rfl : left = 0 := by omega
      simp [hr]

lemma runFrom_of_not_ends (takes : Nat → Nat) (clock : Nat)
    (hleft : attempt + left = p.maxRetries) (hgoes : ¬ Ends p retryable outcome attempt) :
    ∃ rest, left = rest + 1 ∧
      let later := runFrom p retryable outcome takes rest (attempt + 1)
        (clock + p.delayMs attempt + takes attempt)
      runFrom p retryable outcome takes left attempt clock =
        ⟨later.result, (clock + p.delayMs attempt) :: later.atMs⟩ := by
  obtain ⟨rest, rfl⟩ : ∃ rest, left = rest + 1 := by
    refine ⟨left - 1, ?_⟩
    have : attempt ≠ p.maxRetries := fun h => hgoes (.inr (.inr h))
    omega
  refine ⟨rest, rfl, ?_⟩
  cases hout : outcome attempt with
  | ok a => exact absurd (.inl ⟨a, hout⟩) hgoes
  | error e =>
    have hr : retryable e = true := by
      by_contra hr
      exact hgoes (.inr (.inl ⟨e, hout, by simpa using hr⟩))
    intro later
    conv_lhs => rw [runFrom]
    simp only [hout, hr, Bool.not_true, Bool.false_eq_true, if_false, later]

/-! ### All calls -/

/-- As long as no call has ended them, the calls that are left end with the first that does. -/
lemma runFrom_eq (retryable : ε → Bool) (outcome : Nat → Except ε α)
    (hleft : attempt + left = p.maxRetries)
    (hclock : clock + p.delayMs attempt = madeAt p takes attempt)
    (hgoes : ∀ n < attempt, ¬ Ends p retryable outcome n) :
    ∃ more, IsLeast {n | Ends p retryable outcome n} (attempt + more) ∧
      runFrom p retryable outcome takes left attempt clock =
        ⟨outcome (attempt + more), (List.range' attempt (more + 1)).map (madeAt p takes)⟩ := by
  induction left generalizing attempt clock with
  | zero =>
    have hends : Ends p retryable outcome attempt := .inr (.inr hleft)
    refine ⟨0, ⟨hends, fun n hn => ?_⟩, ?_⟩
    · exact Nat.le_of_not_lt fun hlt => hgoes n hlt hn
    · simp [runFrom_of_ends hleft hends, hclock]
  | succ left ih =>
    by_cases hends : Ends p retryable outcome attempt
    · refine ⟨0, ⟨hends, fun n hn => ?_⟩, ?_⟩
      · exact Nat.le_of_not_lt fun hlt => hgoes n hlt hn
      · simp [runFrom_of_ends hleft hends, hclock]
    · obtain ⟨rest, hrest, heq⟩ := runFrom_of_not_ends takes clock hleft hends
      obtain rfl : left = rest := by omega
      have hnext : clock + p.delayMs attempt + takes attempt + p.delayMs (attempt + 1) =
          madeAt p takes (attempt + 1) := by rw [hclock, madeAt]
      have hgoes' : ∀ n < attempt + 1, ¬ Ends p retryable outcome n := by
        intro n hn
        rcases Nat.lt_succ_iff_lt_or_eq.mp hn with hlt | rfl
        · exact hgoes n hlt
        · exact hends
      obtain ⟨more, hleast, hlater⟩ := ih (by omega) hnext hgoes'
      have hnumber : attempt + 1 + more = attempt + (more + 1) := by omega
      rw [hnumber] at hleast hlater
      refine ⟨more + 1, hleast, ?_⟩
      rw [heq, hlater, hclock]
      simp [List.range'_succ]

/-! ### Counting in thirty-two bits -/

/-- The calls with their number in thirty-two bits, where 0 comes after the greatest. -/
def countedFrom (p : Policy) (last : UInt32) (retryable : ε → Bool) (outcome : Nat → Except ε α)
    (takes : Nat → Nat) (attempt : UInt32) (clock : Nat) : Trace ε α :=
  let now := clock + p.delayMs attempt.toNat
  match outcome attempt.toNat with
  | .ok a => ⟨.ok a, [now]⟩
  | .error e =>
    if !retryable e then ⟨.error e, [now]⟩
    else if last ≤ attempt then ⟨.error e, [now]⟩
    else
      let rest := countedFrom p last retryable outcome takes (attempt + 1)
        (now + takes attempt.toNat)
      ⟨rest.result, now :: rest.atMs⟩
termination_by last.toNat - attempt.toNat
decreasing_by
  rename_i h
  rw [UInt32.not_le, UInt32.lt_iff_toNat_lt] at h
  have := last.toNat_lt
  rw [UInt32.toNat_add]
  simp
  omega

/-- No number of a call is lost in thirty-two bits, as the calls end in time. -/
lemma countedFrom_eq {last attempt : UInt32} (hlast : p.maxRetries = last.toNat)
    (hleft : attempt.toNat + left = p.maxRetries) :
    countedFrom p last retryable outcome takes attempt clock =
      runFrom p retryable outcome takes left attempt.toNat clock := by
  induction left generalizing attempt clock with
  | zero =>
    have hle : last ≤ attempt := by
      rw [UInt32.le_iff_toNat_le]
      omega
    unfold countedFrom runFrom
    cases outcome attempt.toNat <;> simp [hle]
  | succ left ih =>
    have hlt : ¬ last ≤ attempt := by
      rw [UInt32.le_iff_toNat_le]
      omega
    have hnext : (attempt + 1).toNat = attempt.toNat + 1 := by
      have := last.toNat_lt
      rw [UInt32.toNat_add]
      simp
      omega
    have hrest : ∀ later, countedFrom p last retryable outcome takes (attempt + 1) later =
        runFrom p retryable outcome takes left (attempt + 1).toNat later := fun _ => ih (by omega)
    unfold countedFrom runFrom
    cases outcome attempt.toNat <;> simp [hlt, hrest, hnext]

/-- **Calls are made until the first that ends them.** The result is its outcome. The first call is
made at once and every other one its delay after the outcome of the one before, which is never
longer than the policy allows. A counter of thirty-two bits that holds the bound of the policy
counts the calls without coming round. -/
theorem calls_until_end (p : Policy) (retryable : ε → Bool) (outcome : Nat → Except ε α)
    (takes : Nat → Nat) :
    ∃ k, IsLeast {n | Ends p retryable outcome n} k ∧
      (timed p retryable outcome takes).result = outcome k ∧
      (timed p retryable outcome takes).atMs.length = k + 1 ∧
      (timed p retryable outcome takes).atMs = (List.range (k + 1)).map (madeAt p takes) ∧
      (∀ n, madeAt p takes (n + 1) ≤ madeAt p takes n + takes n + p.maxDelayMs) ∧
      ∀ last : UInt32, p.maxRetries = last.toNat →
        countedFrom p last retryable outcome takes 0 0 = timed p retryable outcome takes := by
  have hclock : 0 + p.delayMs 0 = madeAt p takes 0 := rfl
  obtain ⟨k, hleast, hrun⟩ :=
    runFrom_eq retryable outcome (Nat.zero_add _) hclock (by simp)
  rw [Nat.zero_add] at hleast hrun
  refine ⟨k, hleast, ?_, ?_, ?_, fun n => ?_, fun last hlast => ?_⟩
  · rw [timed, hrun]
  · simp [timed, hrun]
  · rw [timed, hrun, List.range_eq_range']
  · exact Nat.add_le_add_left (p.delayMs_le _) _
  · exact countedFrom_eq hlast (Nat.zero_add _)

/-- The third call succeeds. Nothing is waited before it. -/
theorem calls_until_end_for_third :
    let p : Policy := { maxDelayMs := 0 }
    let outcome : Nat → Except String Nat := fun n => if n < 2 then .error "closed" else .ok n
    p.maxRetries = (3 : UInt32).toNat ∧
      (timed p (fun _ => true) outcome fun _ => 7).result = .ok 2 ∧
      (timed p (fun _ => true) outcome fun _ => 7).atMs = [0, 7, 14] ∧
      countedFrom p 3 (fun _ => true) outcome (fun _ => 7) 0 0 =
        timed p (fun _ => true) outcome fun _ => 7 := by
  intro p outcome
  obtain ⟨k, ⟨hk, hleast⟩, hresult, -, htimes, -, hcounted⟩ :=
    calls_until_end p (fun _ => true) outcome fun _ => 7
  have hle : k ≤ 2 := hleast (.inl ⟨2, rfl⟩)
  have hne : ∀ n < 2, ¬ Ends p (fun _ => true) outcome n := by
    rintro n hn (⟨a, ha⟩ | ⟨e, -, he⟩ | hlast)
    · have herror : outcome n = .error "closed" := if_pos hn
      rw [herror] at ha
      cases ha
    · simp at he
    · have : p.maxRetries = 3 := rfl
      omega
  obtain rfl : k = 2 := Nat.le_antisymm hle (Nat.le_of_not_lt fun hlt => hne k hlt hk)
  have hnone : ∀ n, p.delayMs n = 0 := fun n => Nat.le_zero.mp (p.delayMs_le n)
  refine ⟨rfl, hresult, ?_, hcounted 3 rfl⟩
  rw [htimes]
  simp [List.range_succ, madeAt, hnone]

end NodeWatch.Retry
