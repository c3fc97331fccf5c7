/-!
JSON values. Fields of an object stay in the order of the text and may repeat; what a repetition
means is for the reader of the object to say.
-/

namespace NodeWatch

/-- A number as digits and a power of ten. -/
structure Decimal where
  negative : Bool
  digits : Nat
  exponent : Int
  deriving DecidableEq

/-- Integers are those of 64 bits with or without sign; every other number is `real`. `unreadable`
stands for a value that is written correctly and that nothing can hold: a string with half a
surrogate pair, a number beyond the floating range, an object with such a string as a key. -/
inductive Json where
  | null
  | bool (b : Bool)
  | int (n : Int)
  | real (d : Decimal)
  | str (s : String)
  | arr (items : List Json)
  | obj (fields : List (String × Json))
  | unreadable

namespace Json

instance : Inhabited Json := ⟨.null⟩

def nat (n : Nat) : Json := .int n

def strs (ss : List String) : Json := .arr (ss.map .str)

def optStr : Option String → Json
  | none => .null
  | some s => .str s

end Json

end NodeWatch
