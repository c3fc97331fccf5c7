import NodeWatch.Proofs.Observation
import NodeWatch.Proofs.Roster.Members

/-!
The last observation of an identity stands for the earlier ones.

Observations made at one time leave the same members whether all of them are taken in or only the
last of each identity. What the earlier ones decide is when a member was first seen, and what is
told besides.
-/

namespace NodeWatch

/-- What of a member the latest observation has decided: all but when it was first seen. -/
def Member.latest (m : Member) : Observation × Bool × Nat := (m.node, m.pinned, m.seenAt)

namespace Roster

open Observation

/-- Whoever is new comes last, in the order of the first observations. -/
lemma ids_observeAll (r : Roster) (pinned : Bool) (now : Nat) (os : List Observation) :
    (r.observeAll pinned now os).2.members.map (·.node.id) = r.members.map (·.node.id) ++
      (distinct (os.map (·.id))).filter (· ∉ r.members.map (·.node.id)) := by
  induction os generalizing r with
  | nil => simp [observeAll, distinct]
  | cons o os ih =>
    rw [observeAll, ih, ids_observe, List.map_cons, distinct]
    cases hf : r.find? o.id with
    | some m =>
      obtain ⟨hm, hid⟩ := find?_some hf
      have hmem : o.id ∈ r.members.map (·.node.id) := hid ▸ List.mem_map_of_mem hm
      rw [Option.isSome_some, if_pos rfl, List.filter_cons_of_neg (by simpa using hmem),
        List.filter_filter]
      refine congrArg _ (List.filter_congr fun id _ => ?_)
      by_cases hid : id = o.id <;> simp_all
    | none =>
      have hmem := find?_none hf
      rw [Option.isSome_none, if_neg (by simp), List.filter_cons_of_pos (by simpa using hmem),
        List.filter_filter, List.append_assoc, List.singleton_append]
      refine congrArg (_ ++ o.id :: ·) (List.filter_congr fun id _ => ?_)
      by_cases hid : id = o.id <;> simp [hid]

/-- Whoever is observed is as observed last, whatever was there before. -/
lemma latest_observeAll (r : Roster) (pinned : Bool) (now : Nat) (os : List Observation)
    (id : String) :
    ((r.observeAll pinned now os).2.find? id).map Member.latest =
      ((os.reverse.find? (·.id = id)).map (·, pinned, now)).or
        ((r.find? id).map Member.latest) := by
  induction os generalizing r with
  | nil => rfl
  | cons o os ih =>
    rw [observeAll, ih, find?_observe, List.reverse_cons, List.find?_append]
    cases os.reverse.find? (·.id = id) with
    | some p => rfl
    | none =>
      by_cases hid : o.id = id
      · simp [hid, renewed, Member.latest]
      · simp [hid, Ne.symm hid]

/-- **The last observation of each identity stands for all of them.** The identities are distinct,
the same as before, and in the order in which they come first; each has its last observation, so
that nothing changes when it is done again. A roster gets the same members of them as of all
observations, and tells of each identity at most once. -/
theorem latestById_stands_for_all (os : List Observation) :
    ((latestById os).map (·.id)).Nodup ∧
      (∀ id, id ∈ (latestById os).map (·.id) ↔ id ∈ os.map (·.id)) ∧
      ((latestById os).Pairwise fun o p =>
        (os.map (·.id)).idxOf o.id < (os.map (·.id)).idxOf p.id) ∧
      (∀ o ∈ latestById os, IsLast o os) ∧
      latestById (latestById os) = latestById os ∧
      ∀ (r : Roster) (pinned : Bool) (now : Nat),
        (r.observeAll pinned now (latestById os)).2.members.map (·.node.id) =
          (r.observeAll pinned now os).2.members.map (·.node.id) ∧
        (∀ id, ((r.observeAll pinned now (latestById os)).2.find? id).map Member.latest =
          ((r.observeAll pinned now os).2.find? id).map Member.latest) ∧
        ((r.observeAll pinned now (latestById os)).1.map (·.node.id)).Nodup := by
  have hnodup := nodup_latestById os
  refine ⟨hnodup, fun id => ?_, ?_, fun o => isLast_of_mem_latestById, latestById_of_nodup hnodup,
    fun r pinned now => ⟨?_, fun id => ?_, ?_⟩⟩
  · rw [ids_latestById, mem_distinct]
  · have horder := pairwise_distinct (os.map (·.id))
    rw [← ids_latestById, List.pairwise_map] at horder
    exact horder
  · rw [ids_observeAll, ids_observeAll, distinct_of_nodup hnodup, ids_latestById]
  · -- both are found as the last of the list
    have hlast : (latestById os).reverse.find? (·.id = id) = os.reverse.find? (·.id = id) := by
      rw [← find?_latestById, latestById_of_nodup hnodup, find?_latestById]
    rw [latest_observeAll, latest_observeAll, hlast]
  · have htold := (sublist_observeAll r pinned now (latestById os)).map (·.id)
    rw [List.map_map] at htold
    exact hnodup.sublist htold

/-- A node that is observed before and after another one. -/
theorem latestById_stands_for_all_of_two_nodes :
    let early : Observation := .bare "a" "Shed" (.v4 10 0 0 1) 80 default
    let other : Observation := .bare "b" "Barn" (.v4 10 0 0 2) 80 default
    let late : Observation := .bare "a" "Kitchen" (.v4 10 0 0 1) 80 default
    late ∈ latestById [early, other, late] ∧ IsLast late [early, other, late] ∧
      ((Roster.empty.observeAll false 7 (latestById [early, other, late])).2.find? "a").map
        Member.latest = some (late, false, 7) := by
  intro early other late
  obtain ⟨-, -, -, hlast, -, hroster⟩ := latestById_stands_for_all [early, other, late]
  have hmem : late ∈ latestById [early, other, late] := List.mem_cons_self
  refine ⟨hmem, hlast late hmem, ?_⟩
  rw [(hroster .empty false 7).2.1]
  rfl

end Roster

end NodeWatch
