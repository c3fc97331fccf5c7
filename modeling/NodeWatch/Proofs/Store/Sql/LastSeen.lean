import NodeWatch.Proofs.Store.Sql.Handles
import NodeWatch.Proofs.Time.Order

/-!
The last sign of life of a record that many handles write.

A call compares its time with the one that it reads, and writes with its next statement. If a later
time is written between the two, that one is lost: the stored time goes back, though never behind
what the call has read.
-/

namespace NodeWatch.Store.Sql

variable {qs : List Request} {t : Table} {turns : List Nat} {os : List Record} {id : String}
  {o x : Record}

/-- An update does not write an earlier time than it has read. -/
lemma lastSeen_le_revised (now : Time.Instant) (p : Patch) (x : Record) :
    x.lastSeen ≤ (x.revised now p).asRead.lastSeen := by
  rw [show (x.revised now p).asRead.lastSeen = (x.revised now p).lastSeen from
    Medium.table.read_lastSeen _]
  exact x.lastSeen_le_revised now p

/-- **When the last sign of life goes back.** After each statement the stored time is no earlier
than before it, unless the statement is the second of a call and the time was moved forward since
the first: then it may go back, but not behind what the first has read. -/
theorem lastSeen_of_turn (horder : t.InOrder os) (hplain : ∀ q ∈ qs, q.Plain)
    (hkinds : ∀ q ∈ qs, ∀ id, q.op ≠ .delete id)
    (hread : stored (after qs t turns).2 id = .ok (some o)) (i : Nat) :
    ∃ o', stored (after qs t (turns ++ [i])).2 id = .ok (some o') ∧
      (o.lastSeen ≤ o'.lastSeen ∨
        ∃ front middle x, Begun turns front middle i ∧
          stored (after qs t front).2 id = .ok (some x) ∧
          x.lastSeen ≤ o'.lastSeen ∧ o'.lastSeen < o.lastSeen) := by
  have hbound : ∀ x ∈ os, x.version ≤ (os.map (·.version)).max?.getD 0 := fun x hx =>
    List.le_max?_getD_of_mem (List.mem_map_of_mem hx)
  obtain ⟨os', h⟩ := intact horder hbound hplain turns fun q hq id hid =>
    absurd hid (hkinds q hq id)
  obtain ⟨-, hmoves⟩ := h.step (fun q hq id hid => absurd hid (hkinds q hq id)) hplain i
  obtain ⟨o', ho', hmove⟩ := hmoves id o hread
  refine ⟨o', ho', ?_⟩
  by_cases hle : o.lastSeen ≤ o'.lastSeen
  · exact .inl hle
  have hlt : o'.lastSeen < o.lastSeen := Time.Instant.lt_iff.mpr hle
  cases hmove with
  | stays => exact absurd (Time.Instant.le_refl _) hle
  | deleted request => exact absurd (Time.Instant.le_refl _) hle
  | touched request begun read later =>
    exact .inr ⟨_, _, _, begun, read, Time.Instant.le_of_lt later, hlt⟩
  | written request begun read version answered =>
    exact .inr ⟨_, _, _, begun, read, lastSeen_le_revised _ _ _, hlt⟩

/-! ### Two signs of life at once -/

/-- A node is put on record, and then seen by two handles. -/
def sightings : List Request :=
  [⟨⟨"a", default⟩, .create { name := "pi", address := .v4 10 0 0 1, lastSeen := default }⟩,
    ⟨⟨"", default⟩, .touch "a" (.ofSeconds 10)⟩, ⟨⟨"", default⟩, .touch "a" (.ofSeconds 30)⟩]

lemma sightings_plain : ∀ q ∈ sightings, q.Plain := by
  have hplain : (default : Time.Instant).HasPlainYear ∧
      (Time.Instant.ofSeconds 10).HasPlainYear ∧ (Time.Instant.ofSeconds 30).HasPlainYear := by
    decide
  simp [sightings, Request.Plain, Operation.HasPlainTimes, hplain]

theorem lastSeen_of_turn_for_sightings : ∃ o o',
    stored (after sightings {} [0, 1, 2, 2]).2 "a" = .ok (some o) ∧
    stored (after sightings {} ([0, 1, 2, 2] ++ [1])).2 "a" = .ok (some o') ∧
    (o.lastSeen ≤ o'.lastSeen ∨
      ∃ front middle x, Begun [0, 1, 2, 2] front middle 1 ∧
        stored (after sightings {} front).2 "a" = .ok (some x) ∧
        x.lastSeen ≤ o'.lastSeen ∧ o'.lastSeen < o.lastSeen) := by
  have hread : ∃ o, stored (after sightings {} [0, 1, 2, 2]).2 "a" = .ok (some o) := ⟨_, rfl⟩
  obtain ⟨o, hread⟩ := hread
  obtain ⟨o', ho', h⟩ := lastSeen_of_turn Table.inOrder_empty sightings_plain
    (by simp [sightings]) hread 1
  exact ⟨o, o', hread, ho', h⟩

/-- **The last sign of life goes back**: the handle that is told of the earlier one reads before and
writes after the other. -/
theorem lastSeen_goes_back : ∃ o o',
    stored (after sightings {} [0, 1, 2, 2]).2 "a" = .ok (some o) ∧
    stored (after sightings {} ([0, 1, 2, 2] ++ [1])).2 "a" = .ok (some o') ∧
    o.lastSeen = .ofSeconds 30 ∧ o'.lastSeen = .ofSeconds 10 ∧ ¬ o.lastSeen ≤ o'.lastSeen := by
  refine ⟨_, _, rfl, rfl, ?_⟩
  decide

end NodeWatch.Store.Sql
