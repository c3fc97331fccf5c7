/-!
Texts as bytes: their length in UTF-8, and the texts that byte strings are.
-/

namespace NodeWatch.Text

def utf8Length (s : List Char) : Nat := s.foldl (fun n c => n + c.utf8Size) 0

/-- The text that UTF-8 bytes write; none if they write none. -/
def ofBytes? (bytes : List UInt8) : Option String := String.fromUTF8? ⟨bytes.toArray⟩

end NodeWatch.Text
