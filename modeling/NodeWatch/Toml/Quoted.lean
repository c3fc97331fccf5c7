import NodeWatch.Json.Reader

/-!
Quoted texts of a TOML document: with escapes between double quotes, without any between single
ones, on one line or, between triple quotes, on several.
-/

namespace NodeWatch.Toml

open Text

def isSpace (c : Char) : Bool := c = ' ' || c = '\t'

/-- Characters that may stand anywhere: all but the controls, of which the tab is allowed. -/
def isPlain (c : Char) : Bool := c = '\t' || (32 ≤ c.toNat && c.toNat ≠ 127)

def singleQuote : Char := Char.ofNat 39

/-- What stands before the closing quote, and what follows it. -/
def rawLine (quote : Char) (escapes : Bool) (done : List Char) :
    List Char → Option (List Char × List Char)
  | [] => none
  | c :: r =>
    if c = quote then some (done.reverse, r)
    else if escapes && c = '\\' then
      match r with
      | [] => none
      | d :: r => rawLine quote escapes (d :: c :: done) r
    else rawLine quote escapes (c :: done) r

/-- What stands before three closing quotes, and what follows them; `quotes` have just been read.
One or two quotes may stand right before the closing ones. -/
def rawBlock (quote : Char) (escapes : Bool) (quotes : Nat) (done : List Char) :
    List Char → Option (List Char × List Char)
  | [] =>
    if 3 ≤ quotes then some ((List.replicate (quotes - 3) quote ++ done).reverse, []) else none
  | c :: r =>
    if c = quote then
      if quotes = 5 then none else rawBlock quote escapes (quotes + 1) done r
    else if 3 ≤ quotes then
      some ((List.replicate (quotes - 3) quote ++ done).reverse, c :: r)
    else
      let done := List.replicate quotes quote ++ done
      if escapes && c = '\\' then
        match r with
        | [] => none
        | d :: r => rawBlock quote escapes 0 (d :: c :: done) r
      else rawBlock quote escapes 0 (c :: done) r

/-- A text whose line ends are all single newlines; a return elsewhere is an error. -/
def unixLines : List Char → Option (List Char)
  | [] => some []
  | '\r' :: '\n' :: r => (unixLines r).map ('\n' :: ·)
  | c :: r => if c = '\r' then none else (unixLines r).map (c :: ·)

/-- The character of a number, if there is one. -/
def scalarChar? (n : Nat) : Option Char :=
  if n < 0xD800 ∨ (0xDFFF < n ∧ n < 0x110000) then some (Char.ofNat n) else none

/-- The character that some hexadecimal digits write. -/
def hexChar? (ds : List Char) : Option Char :=
  if ds.all fun c => (hexValue? c).isSome then scalarChar? (valueFrom 16 0 ds) else none

/-- What comes before the next character: nothing, a backslash with blanks behind it, which needs a
line end, or such a line end, after which blanks and line ends are dropped. -/
inductive Gap where
  | none
  | opened
  | dropped
  deriving DecidableEq

/-- A text with its escapes resolved. -/
def unescape (gap : Gap) : List Char → Option (List Char)
  | [] => if gap = .opened then none else some []
  | '\\' :: 'u' :: a :: b :: c :: d :: r =>
    if gap = .opened then none
    else do return (← hexChar? [a, b, c, d]) :: (← unescape .none r)
  | '\\' :: 'U' :: a :: b :: c :: d :: e :: f :: g :: h :: r =>
    if gap = .opened then none
    else do return (← hexChar? [a, b, c, d, e, f, g, h]) :: (← unescape .none r)
  | '\\' :: c :: r =>
    if gap = .opened then none
    else match c with
      | '"' | '\\' => (unescape .none r).map (c :: ·)
      | 'b' => (unescape .none r).map (Char.ofNat 8 :: ·)
      | 'f' => (unescape .none r).map (Char.ofNat 12 :: ·)
      | 'n' => (unescape .none r).map ('\n' :: ·)
      | 'r' => (unescape .none r).map ('\r' :: ·)
      | 't' => (unescape .none r).map ('\t' :: ·)
      | '\n' => unescape .dropped r
      | _ => if isSpace c then unescape .opened r else .none
  | c :: r =>
    match gap with
    | .none => if c = '\\' then .none else (unescape .none r).map (c :: ·)
    | .opened => if isSpace c then unescape .opened r
      else if c = '\n' then unescape .dropped r else .none
    | .dropped => if isSpace c || c = '\n' then unescape .dropped r
      else if c = '\\' then .none else (unescape .none r).map (c :: ·)

/-- A line of plain characters, with escapes or without. -/
def readLine (quote : Char) (s : List Char) : Option (List Char × List Char) := do
  let (raw, r) ← rawLine quote (quote = '"') [] s
  if !raw.all isPlain then none
  let t ← if quote = '"' then unescape .none raw else some raw
  return (t, r)

/-- Several lines; a line end right at the start does not count. -/
def readBlock (quote : Char) (s : List Char) : Option (List Char × List Char) := do
  let (raw, r) ← rawBlock quote (quote = '"') 0 [] s
  let raw ← unixLines raw
  let raw := match raw with
    | '\n' :: t => t
    | t => t
  if !raw.all fun c => isPlain c || c = '\n' then none
  let t ← if quote = '"' then unescape .none raw else some raw
  return (t, r)

/-- A quoted text from its opening quotes on. -/
def readQuoted (blocks : Bool) : List Char → Option (List Char × List Char)
  | a :: b :: c :: r =>
    if a ≠ '"' ∧ a ≠ singleQuote then none
    else if blocks ∧ a = b ∧ b = c then readBlock a r
    else readLine a (b :: c :: r)
  | a :: r => if a ≠ '"' ∧ a ≠ singleQuote then none else readLine a r
  | [] => none

end NodeWatch.Toml
