import NodeWatch.Observation
import NodeWatch.Store.Record
import NodeWatch.Time.Instant.Text
import NodeWatch.Net.Address.Text
import NodeWatch.Text.Numeral

/-!
Nodes in columns. A text that is wider than its column moves what follows it to the right.
-/

namespace NodeWatch.Cli

open Text

/-- A cell of a column. Names of states and roles are not filled up. -/
inductive Cell where
  | left (width : Nat) (s : String)
  | right (width : Nat) (s : String)
  | bare (s : String)

def Cell.text : Cell → String
  | left w s => String.ofList (padRight w s.toList)
  | right w s => String.ofList (padLeft w s.toList)
  | bare s => s

/-- Cells with a space between neighbours. -/
def line (cells : List Cell) : String := " ".intercalate (cells.map Cell.text)

def recordHeader : String :=
  line [.left 28 "NAME", .left 16 "IP", .left 12 "STATUS", .left 7 "ROLE", .left 8 "ARCH",
    .bare "LAST SEEN"]

def recordLine (r : Store.Record) : String :=
  line [.left 28 r.name, .left 16 r.address.toString, .bare r.status.text, .bare r.role.text,
    .left 8 r.architecture, .bare (String.ofList r.lastSeen.plainText)]

def counted (n : Nat) : String := String.ofList (decimal n) ++ " node(s)"

def recordTable (rs : List Store.Record) : List String :=
  if rs = [] then ["No nodes registered"]
  else recordHeader :: rs.map recordLine ++ ["", counted rs.length]

/-- Two spaces part the port from what follows it. -/
def nodeCells (name address port architecture model : String) : String :=
  line [.left 28 name, .left 16 address, .right 5 port] ++ "  "
    ++ line [.left 8 architecture, .bare model]

def nodeHeader : String := nodeCells "NAME" "IP" "PORT" "ARCH" "MODEL"

/-- What stands for a text that is not known. -/
def unknownText : String := "-"

def nodeLine (o : Observation) : String :=
  nodeCells (o.displayName?.getD unknownText) o.address.toString
    (String.ofList (decimal o.port.toNat)) (o.architecture?.getD unknownText)
    (o.model?.getD unknownText)

def nodeTable (backend : String) (os : List Observation) : List String :=
  if os = [] then ["No nodes found"]
  else nodeHeader :: os.map nodeLine ++ ["", counted os.length ++ " via " ++ backend]

end NodeWatch.Cli
