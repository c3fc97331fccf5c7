import NodeWatch.Event.Json
import NodeWatch.Roster

/-!
Members as JSON.
-/

namespace NodeWatch

def sortedById (os : List Observation) : List Observation := os.mergeSort fun o p => o.id ≤ p.id

/-- A member and the time since it was last observed. -/
def Member.json (m : Member) (now : Nat) : Json :=
  .obj [("node", m.node.json), ("pinned", .bool m.pinned),
    ("first_seen", .str m.firstSeen.toString), ("since_ms", .nat (now - m.seenAt))]

/-- All members in the order of their identities. -/
def Roster.json (r : Roster) (now : Nat) : Json :=
  .arr ((r.members.mergeSort fun m n => m.node.id ≤ n.node.id).map (·.json now))

/-- How many members there are, of either kind. -/
def Roster.stats (r : Roster) : Json :=
  .obj [("total", .nat r.size), ("pinned", .nat r.pinnedCount),
    ("dynamic", .nat (r.size - r.pinnedCount))]

end NodeWatch
