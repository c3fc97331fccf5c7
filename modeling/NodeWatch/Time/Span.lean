import NodeWatch.Text.Numeral

/-!
Lengths of time in nanoseconds, and their text in the largest unit that is not below one.
-/

namespace NodeWatch.Time

structure Span where
  nanos : Nat
  deriving DecidableEq

namespace Span

open Text

def ofSeconds (n : Nat) : Span := ⟨n * 1000000000⟩
def ofMillis (n : Nat) : Span := ⟨n * 1000000⟩
def seconds (d : Span) : Nat := d.nanos / 1000000000
def millis (d : Span) : Nat := d.nanos / 1000000

/-- The longest span: all seconds of 64 bits. -/
def maxSeconds : Nat := u64Max

/-- A multiple, unless it is longer than the longest span. -/
def scale? (d : Span) (n : Nat) : Option Span :=
  if d.nanos * n / 1000000000 ≤ maxSeconds then some ⟨d.nanos * n⟩ else none

/-- A fraction with as many digits as it needs, out of `10 ^ places`. -/
def fraction (places n : Nat) : List Char :=
  match ((padded places n).reverse.dropWhile (· = '0')).reverse with
  | [] => []
  | ds => '.' :: ds

def text (d : Span) : List Char :=
  if 1000000000 ≤ d.nanos then
    decimal (d.nanos / 1000000000) ++ fraction 9 (d.nanos % 1000000000) ++ ['s']
  else if 1000000 ≤ d.nanos then
    decimal (d.nanos / 1000000) ++ fraction 6 (d.nanos % 1000000) ++ ['m', 's']
  else if 1000 ≤ d.nanos then
    decimal (d.nanos / 1000) ++ fraction 3 (d.nanos % 1000) ++ [Char.ofNat 0xB5, 's']
  else decimal d.nanos ++ ['n', 's']

end Span

end NodeWatch.Time
