import NodeWatch.Event
import NodeWatch.Places

/-!
The members: the nodes that are present, under distinct identities.

Every observation either brings a member in or renews it. Members leave by a sweep, which removes
all that have not been observed for a given time, or when they are removed by hand. Times are ticks
of a clock that never goes back; an observation also carries an instant of the calendar, which
decides nothing here.
-/

namespace NodeWatch

/-- A member: the latest observation, and when it was made. Pinned members are never swept. -/
structure Member where
  node : Observation
  pinned : Bool
  firstSeen : Time.Instant
  seenAt : Nat

/-- Unobserved for at least the threshold. -/
def Member.isStale (m : Member) (threshold now : Nat) : Bool :=
  !m.pinned && threshold ≤ now - m.seenAt

structure Roster where
  members : List Member

namespace Roster

def empty : Roster := ⟨[]⟩

def find? (r : Roster) (id : String) : Option Member := r.members.find? (·.node.id = id)

def size (r : Roster) : Nat := r.members.length

def pinnedCount (r : Roster) : Nat := r.members.countP (·.pinned)

/-- The member with the identity replaced by what the function makes of it. -/
def modify (r : Roster) (id : String) (f : Member → Member) : Roster :=
  ⟨r.members.map fun m => if m.node.id = id then f m else m⟩

/-- One observation, and the change that it is. Equal data are no change. -/
def observe (r : Roster) (o : Observation) (pinned : Bool) (now : Nat) :
    Option EventKind × Roster :=
  match r.find? o.id with
  | some m =>
    (if m.node.differsFrom o then some .updated else none,
      r.modify o.id fun m => { m with node := o, pinned, seenAt := now })
  | none => (some .discovered, ⟨r.members ++ [⟨o, pinned, o.lastSeen, now⟩]⟩)

/-- Observations made at one time, and the changes in their order. -/
def observeAll (r : Roster) (pinned : Bool) (now : Nat) : List Observation → List Event × Roster
  | [] => ([], r)
  | o :: os =>
    let (change, r) := r.observe o pinned now
    let (events, r) := r.observeAll pinned now os
    ((change.map (⟨·, o⟩)).toList ++ events, r)

/-- Removes the stale members and tells what was last observed of them, each in its place. -/
def sweep (r : Roster) (threshold now : Nat) (places : Places := .same) :
    List Observation × Roster :=
  ((inPlaces places (·.node.id) (r.members.filter (·.isStale threshold now))).map (·.node),
    ⟨r.members.filter fun m => !m.isStale threshold now⟩)

def remove (r : Roster) (id : String) : Option Member × Roster :=
  (r.find? id, ⟨r.members.filter (·.node.id ≠ id)⟩)

end Roster

end NodeWatch
