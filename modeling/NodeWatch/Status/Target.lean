import NodeWatch.Text.Split

/-!
Requests as they are written: a method and a target. A target is a path with a query, a whole
address with a scheme, or an authority alone. Only the path of it counts here.
-/

namespace NodeWatch.Status

open Text

/-- The characters of a method. -/
def isMethodChar (c : Char) : Bool :=
  c.isAlphanum || "!#$%&'*+-.^_|~".toList.contains c || c.toNat = 0x60

/-- The characters of a path. -/
def isPathChar (c : Char) : Bool :=
  let n := c.toNat
  n = 0x21 || n = 0x22 || (0x24 ≤ n && n ≤ 0x3B) || n = 0x3D || (0x40 ≤ n && n ≤ 0x5F) || 0x61 ≤ n

/-- The characters of a query. -/
def isQueryChar (c : Char) : Bool :=
  let n := c.toNat
  n = 0x21 || (0x24 ≤ n && n ≤ 0x3B) || n = 0x3D || 0x3F ≤ n

/-- The path before a query and a fragment. -/
def pathOf? (s : List Char) : Option (List Char) :=
  let s := s.takeWhile (· ≠ '#')
  let path := s.takeWhile (· ≠ '?')
  if path.all isPathChar && (s.drop (path.length + 1)).all isQueryChar then some path else none

def isAuthorityChar (c : Char) : Bool := c.isAlphanum || "!$&'()*+,-.:;=@[]_~%".toList.contains c

/-- What was seen of an authority: colons and percent signs since the user information, the
brackets around an address, and whether the user information has just ended. -/
structure Authority where
  colons : Nat := 0
  percent : Bool := false
  opened : Bool := false
  closed : Bool := false
  atEnd : Bool := false

/-- One more character, unless it is out of place. -/
def Authority.step (a : Authority) (c : Char) : Option Authority :=
  let a := { a with atEnd := false }
  if !isAuthorityChar c then none
  else if c = ':' then if 8 ≤ a.colons then none else some { a with colons := a.colons + 1 }
  else if c = '[' then if a.percent || a.opened then none else some { a with opened := true }
  else if c = ']' then
    if !a.opened || a.closed then none
    else some { a with closed := true, colons := 0, percent := false }
  else if c = '@' then some { a with atEnd := true, colons := 0, percent := false }
  else if c = '%' then some { a with percent := true }
  else some a

def isAuthority (s : List Char) : Bool :=
  match s.foldlM Authority.step {} with
  | none => false
  | some a => a.opened = a.closed && a.colons ≤ 1 && !a.atEnd && !a.percent

def isSchemeChar (c : Char) : Bool := c.isAlphanum || c = '+' || c = '-' || c = '.'

/-- What follows the scheme, if there is one of at most sixty-four characters. -/
def afterScheme? (s : List Char) : Option (List Char) :=
  let scheme := s.takeWhile isSchemeChar
  if scheme.length ≤ 64 then afterStart "://".toList (s.drop scheme.length) else none

/-- The path of a target, unless the text is no target. An authority alone has an empty path. -/
def targetPath? (s : List Char) : Option (List Char) :=
  match s with
  | [] => none
  | ['*'] => some s
  | '/' :: _ => pathOf? s
  | _ =>
    match afterScheme? s with
    | none => if isAuthority s then some [] else none
    | some s =>
      let authority := s.takeWhile fun c => c ≠ '/' && c ≠ '?' && c ≠ '#'
      if authority = [] || !isAuthority authority then none
      else (pathOf? (s.drop authority.length)).map fun p => if p = [] then ['/'] else p

structure Request where
  method : String
  path : String

/-- A request as it is written, unless that is no request. -/
def Request.of? (method target : String) : Option Request :=
  if method ≠ "" ∧ method.toList.all isMethodChar then
    (targetPath? target.toList).map fun p => ⟨method, String.ofList p⟩
  else none

end NodeWatch.Status
