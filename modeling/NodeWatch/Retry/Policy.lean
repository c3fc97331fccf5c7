import NodeWatch.Json.Value
import NodeWatch.Text.Numeral

/-!
How often a failing call is repeated, and how long to wait before each repetition.

The delays grow by a floating factor. Powers are taken by repeated squaring, so that their rounding
is that of these multiplications and no other.
-/

namespace NodeWatch.Retry

structure Policy where
  maxRetries : Nat := 3
  baseDelayMs : Nat := 500
  maxDelayMs : Nat := 10000
  factor : Float := 2.0

/-- `acc * a ^ n`, with one multiplication for each binary digit of `n` that is set. -/
def powerFrom (acc a : Float) (n : Nat) : Float :=
  let acc := if n % 2 = 1 then acc * a else acc
  if n < 2 then acc else powerFrom acc (a * a) (n / 2)
termination_by n
decreasing_by omega

/-- A power with an exponent of thirty-two bits; the reciprocal is taken last. -/
def power (a : Float) (e : Int) : Float :=
  let r := powerFrom 1.0 a e.natAbs
  if e < 0 then 1.0 / r else r

/-- The exponent for a repetition: one less than its number, in signed thirty-two bits. -/
def exponentOf (attempt : Nat) : Int := Int.bmod (attempt - 1 : Nat) 4294967296

/-- Milliseconds to wait before the call of this number; the first call is number 0. -/
def Policy.delayMs (p : Policy) (attempt : Nat) : Nat :=
  if attempt = 0 then 0
  else
    let grown := (UInt64.ofNat p.baseDelayMs).toFloat * power p.factor (exponentOf attempt)
    min grown.toUInt64.toNat p.maxDelayMs

@[simp] theorem Policy.delayMs_zero (p : Policy) : p.delayMs 0 = 0 := rfl

/-- No wait is longer than the policy allows, however the delays grow. -/
theorem Policy.delayMs_le (p : Policy) (attempt : Nat) : p.delayMs attempt ≤ p.maxDelayMs := by
  unfold delayMs
  split
  · exact Nat.zero_le _
  · exact Nat.min_le_right _ _

/-- The leading digits of a number, as many as sixty-four bits hold, and the power of ten that makes
up for the others. -/
def leading (digits : Nat) (exponent : Int) : Nat × Int :=
  if digits ≤ Text.u64Max then (digits, exponent) else leading (digits / 10) (exponent + 1)
termination_by digits
decreasing_by omega

/-- A decimal as a floating number: its leading digits times or divided by a power of ten. -/
def factorOf (d : Decimal) : Float :=
  let (n, exponent) := leading d.digits d.exponent
  let digits := (UInt64.ofNat n).toFloat
  let scaled :=
    if 0 ≤ exponent then digits * Float.ofScientific 1 false exponent.toNat
    else if exponent < -308 then
      digits / Float.ofScientific 1 false 308
        / Float.ofScientific 1 false (min 308 (-exponent - 308).toNat)
    else digits / Float.ofScientific 1 false (-exponent).toNat
  if d.negative then -scaled else scaled

end NodeWatch.Retry
