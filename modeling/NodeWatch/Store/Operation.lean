import NodeWatch.Program
import NodeWatch.Store.Error

/-!
The calls that a store of records answers.
-/

namespace NodeWatch.Store

inductive Operation where
  | findByAddress (a : Net.Address)
  | findByName (name : String)
  | create (n : NewRecord)
  | update (id : String) (expected : Nat) (p : Patch)
  | touch (id : String) (at_ : Time.Instant)
  | get (id : String)
  | list
  | delete (id : String)

namespace Operation

/-- What a call gives when it does not fail. -/
def Result : Operation → Type
  | findByAddress _ | findByName _ | get _ => Option Record
  | create _ | update .. => Record
  | touch .. => Unit
  | list => List Record
  | delete _ => Bool

abbrev Answer (op : Operation) : Type := Except Error op.Result

end Operation

/-- A program that works on a store. -/
abbrev Session (α : Type) : Type := Program Operation Operation.Answer α

/-- Records in the order of their names, by code points. -/
def sortByName (rs : List Record) : List Record := rs.mergeSort fun r s => r.name ≤ s.name

end NodeWatch.Store
