import NodeWatch.Json.Decode
import NodeWatch.Toml.Quoted
import NodeWatch.Toml.Scalar
import NodeWatch.Toml.Table

/-!
Reading TOML text as a value. The tables of the document become objects, lists of tables arrays.
-/

namespace NodeWatch.Toml

/-- How deep values may stand in each other, and how many parts a key may have. -/
def depthLimit : Nat := 80

def skipSpace (s : List Char) : List Char := s.dropWhile isSpace

/-- What follows a line end. -/
def readNewline : List Char → Option (List Char)
  | '\n' :: r => some r
  | '\r' :: '\n' :: r => some r
  | _ => none

/-- What follows a comment, if there is one here. -/
def skipComment : List Char → List Char
  | '#' :: r => r.dropWhile isPlain
  | s => s

/-- The end of a line, after blanks and a comment. -/
def readLineEnd (s : List Char) : Option (List Char) :=
  match skipComment (skipSpace s) with
  | [] => some []
  | s => readNewline s

/-- Blanks, comments and line ends; each comment ends with its line. -/
def skipLines : (fuel : Nat) → List Char → List Char
  | 0, s => s
  | n + 1, s =>
    match readNewline (skipComment (skipSpace s)) with
    | some r => skipLines n r
    | none => skipSpace s

/-- One part of a key. -/
def readPart (s : List Char) : Option (String × List Char) :=
  match s.takeWhile isBare with
  | [] => (readQuoted false s).map fun (k, r) => (String.ofList k, r)
  | k => some (String.ofList k, s.drop k.length)

/-- The parts of a dotted key, blanks around each of them. -/
def readParts : (fuel : Nat) → List Char → Option (List String × List Char)
  | 0, _ => none
  | n + 1, s => do
    let (k, r) ← readPart (skipSpace s)
    match skipSpace r with
    | '.' :: r =>
      let (ks, r) ← readParts n r
      return (k :: ks, r)
    | r => return ([k], r)

def readKey (s : List Char) : Option (List String × List Char) :=
  (readParts s.length s).filter (·.1.length < depthLimit)

mutual

/-- A value inside `depth` others, and what follows it. Each call spends one unit of `fuel`. -/
def readValue : (fuel depth : Nat) → List Char → Option (Json × List Char)
  | 0, _, _ => none
  | n + 1, depth, s =>
    match s with
    | '[' :: r =>
      if depthLimit ≤ depth + 1 then none
      else (readItems n (depth + 1) r).map fun (vs, r) => (.arr vs, r)
    | '\x7b' :: r =>
      if depthLimit ≤ depth + 1 then none
      else match skipSpace r with
        | '\x7d' :: r => some (.obj [], r)
        | r => (readEntries n (depth + 1) [] r).map fun (es, r) => (.obj (entriesJson es), r)
    | c :: _ =>
      if c = '"' ∨ c = singleQuote then
        (readQuoted true s).map fun (t, r) => (.str (String.ofList t), r)
      else readScalar s
    | [] => none

/-- Values up to the closing bracket; a comma may stand behind the last. -/
def readItems : (fuel depth : Nat) → List Char → Option (List Json × List Char)
  | 0, _, _ => none
  | n + 1, depth, s =>
    match skipLines s.length s with
    | ']' :: r => some ([], r)
    | s =>
      match readValue n depth s with
      | none => none
      | some (v, r) =>
        match skipLines r.length r with
        | ',' :: r => (readItems n depth r).map fun (vs, r) => (v :: vs, r)
        | ']' :: r => some ([v], r)
        | _ => none

/-- Keys and values up to the closing brace, all on one line. -/
def readEntries : (fuel depth : Nat) → Entries → List Char → Option (Entries × List Char)
  | 0, _, _, _ => none
  | n + 1, depth, es, s =>
    match readKey s with
    | some (ks, '=' :: r) =>
      match readValue n depth (skipSpace r) with
      | none => none
      | some (v, r) =>
        match insert ks v es with
        | none => none
        | some es =>
          match skipSpace r with
          | ',' :: r => readEntries n depth es r
          | '\x7d' :: r => some (es, r)
          | _ => none
    | _ => none

end

/-- The tables read so far, and the path to the one that is open. -/
structure Document where
  root : Entries := []
  current : List String := []

/-- One line that is not empty, and what follows it. -/
def readStatement (d : Document) (s : List Char) : Option (Document × List Char) :=
  match s with
  | '[' :: '[' :: r => do
    let (ks, r) ← readKey r
    match r with
    | ']' :: ']' :: r => return (⟨← openItem ks d.root, ks⟩, ← readLineEnd r)
    | _ => none
  | '[' :: r => do
    let (ks, r) ← readKey r
    match r with
    | ']' :: r => return (⟨← openTable ks d.root, ks⟩, ← readLineEnd r)
    | _ => none
  | _ => do
    let (ks, r) ← readKey s
    match r with
    | '=' :: r =>
      let (v, r) ← readValue (2 * r.length + 2) 0 (skipSpace r)
      return (⟨← insertAt d.current ks v d.root, d.current⟩, ← readLineEnd r)
    | _ => none

/-- The lines of a document. -/
def readStatements : (fuel : Nat) → Document → List Char → Option Document
  | 0, _, _ => none
  | n + 1, d, s =>
    match skipSpace s with
    | [] => some d
    | '#' :: r =>
      match readLineEnd ('#' :: r) with
      | some r => readStatements n d r
      | none => none
    | '\n' :: r => readStatements n d r
    | '\r' :: r =>
      match r with
      | '\n' :: r => readStatements n d r
      | _ => none
    | s =>
      match readStatement d s with
      | some (d, r) => readStatements n d r
      | none => none

def byteOrderMark : Char := Char.ofNat 0xFEFF

/-- The value of a whole text; a byte order mark at its start does not count. -/
def ofText? (s : List Char) : Option Json :=
  let s := match s with
    | c :: r => if c = byteOrderMark then r else s
    | [] => []
  (readStatements (s.length + 1) {} s).map fun d => .obj (entriesJson d.root)

/-- An empty table or array stands for nothing. -/
def dialect : Json.Dialect where
  isUnit
    | .obj [] | .arr [] => true
    | _ => false
  longRecords := true

end NodeWatch.Toml
