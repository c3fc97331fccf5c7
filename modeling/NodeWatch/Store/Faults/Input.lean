import NodeWatch.Store.Faults
import NodeWatch.Store.Record.Input

/-!
Faults as people write them.
-/

namespace NodeWatch.Store

/-- What injected faults say. -/
def injectedText : String := "injected"

/-- The error that a word stands for, if it stands for one. -/
def injectedError? (word : String) (field : String) : Option Error :=
  match word with
  | "unavailable" => some (.unavailable injectedText)
  | "not_found" => some (.notFound injectedText)
  | "corrupt" => some (.corrupt (.other injectedText))
  | "conflict" => some (.conflict injectedText 1 2)
  | "duplicate" => some (.duplicate (Unique.ofText field) injectedText)
  | _ => none

/-- A fault. One without an error lets the call miss what another writer does meanwhile. -/
def Injection.ofInput (v : Json) : Except InputFault Injection := do
  let effect ← match injectedError? (v.textAt "fault") (v.textAt "field") with
    | some e => .ok (Effect.fail e)
    | none => (Patch.ofInput (v.get "race")).map .miss
  return ⟨Method.ofText? (v.textAt "on"), v.natAt "skip", effect⟩

end NodeWatch.Store
