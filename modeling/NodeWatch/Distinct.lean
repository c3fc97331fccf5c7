/-!
Lists without repetitions.
-/

namespace NodeWatch

/-- The first occurrence of each element. -/
def distinct {α : Type} [DecidableEq α] : List α → List α
  | [] => []
  | a :: r => a :: (distinct r).filter (· ≠ a)

end NodeWatch
