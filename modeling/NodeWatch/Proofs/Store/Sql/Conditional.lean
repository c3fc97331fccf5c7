import NodeWatch.Proofs.Store.Sql.Handles

/-!
Conditional updates among many handles.

An update compares the version that it reads with its first statement, and writes the whole record
with its second, which has no condition. What is written between the two is lost. If that never
happens, of all updates of one version one at most succeeds, and none undoes what others have done.
-/

namespace NodeWatch.Store.Sql

/-- The call is an update, and it has succeeded. -/
structure Succeeds (qs : List Request) (t : Table) (turns : List Nat) (i : Nat) (s : Stamp)
    (id : String) (v : Nat) (p : Patch) (r : Record) : Prop where
  request : qs[i]? = some ⟨s, .update id v p⟩
  answer : (after qs t turns).1[i]? = some (.done ⟨.update id v p, .ok r⟩)

/-- Every update that succeeds finds with its second statement the version that it expects. -/
def Fresh (qs : List Request) (t : Table) (turns : List Nat) : Prop :=
  ∀ i s id v p r x c, Succeeds qs t turns i s id v p r → Wrote qs t turns i s id v p x c →
    c.version = v

/-- The record as it was but for its last sign of life, or a later version of it. -/
def Follows (o o' : Record) : Prop := (∃ u, o' = o.seenAt u) ∨ o.version < o'.version

lemma Follows.refl (o : Record) : Follows o o := .inl ⟨o.lastSeen, rfl⟩

lemma Follows.trans {o o' o'' : Record} (h : Follows o o') (h' : Follows o' o'') :
    Follows o o'' := by
  rcases h with ⟨u, rfl⟩ | h
  · rcases h' with ⟨w, rfl⟩ | h'
    · exact .inl ⟨w, rfl⟩
    · exact .inr h'
  · rcases h' with ⟨w, rfl⟩ | h'
    · exact .inr h
    · exact .inr (Nat.lt_trans h h')

lemma Follows.version_le {o o' : Record} (h : Follows o o') : o.version ≤ o'.version := by
  rcases h with ⟨u, rfl⟩ | h
  · exact Nat.le_refl _
  · exact Nat.le_of_lt h

section

variable {qs : List Request} {t : Table} {turns : List Nat} {os : List Record} {bound i : Nat}
  {s : Stamp} {id : String} {v : Nat} {p : Patch} {r o x c : Record}

/-- An update that has succeeded has written what it read with its changes. -/
lemma Succeeds.wrote (h : Succeeds qs t turns i s id v p r) (hs : Intact qs t bound turns os) :
    ∃ x c, r = x.revised s.now p ∧ Wrote qs t turns i s id v p x c := by
  obtain ⟨w, hw, hstage⟩ := hs.stages i _ h.request
  obtain rfl : .done ⟨.update id v p, .ok r⟩ = w := Option.some.inj (h.answer.symm.trans hw)
  generalize hdone : (.done ⟨.update id v p, .ok r⟩ : Script Answered) = w at hstage
  cases hstage with
  | waiting never => cases hdone
  | writing begun read version => cases hdone
  | finished wrote =>
    cases hdone
    exact wrote s id v p r rfl rfl

/-- An update writes with its second turn, so that another one may not. -/
lemma Wrote.two_turns (h : Wrote qs t turns i s id v p x c) : 2 ≤ turns.count i := by
  obtain ⟨-, split, -⟩ := h
  rw [split, List.count_append, List.count_append, List.count_cons_self, List.count_cons_self]
  omega

/-- What an update writes has the version after the one that it has read. -/
lemma Intact.version_written (hs : Intact qs t bound turns os)
    (hroom : bound + turns.length < 2 ^ 63) {front rest : List Nat}
    (hturns : turns = front ++ i :: rest) (hread : stored (after qs t front).2 id = .ok (some x))
    (now : Time.Instant) (p : Patch) :
    (x.revised now p).asRead.version = x.version + 1 := by
  obtain ⟨-, hv, -⟩ := hs.past front ⟨i :: rest, hturns.symm⟩ id x hread
  have hlen : front.length + 1 ≤ turns.length := by
    rw [hturns, List.length_append, List.length_cons]
    omega
  have hsmall : (x.revised now p).version < 2 ^ 63 :=
    Nat.lt_of_le_of_lt (Nat.succ_le_succ hv) (by omega)
  rw [asRead_version hsmall]
  rfl

section

variable (horder : t.InOrder os) (hbound : ∀ o ∈ os, o.version ≤ bound)
  (hroom : bound + turns.length < 2 ^ 63) (hplain : ∀ q ∈ qs, q.Plain)
include horder hbound hroom hplain

/-- If no version is written over unread, each turn leaves a record as it is, but for its last sign
of life, or gives it a later version. -/
lemma Fresh.follows_turn (hfresh : Fresh qs t turns) {past rest : List Nat}
    (hturns : turns = past ++ i :: rest) (hread : stored (after qs t past).2 id = .ok (some o)) :
    ∃ o', stored (after qs t (past ++ [i])).2 id = .ok (some o') ∧ Follows o o' := by
  have hlen : past.length + 1 ≤ turns.length := by
    rw [hturns, List.length_append, List.length_cons]
    omega
  obtain ⟨os', h⟩ := intact horder hbound hplain past fun _ _ _ _ => by omega
  obtain ⟨-, hmoves⟩ := h.step (fun _ _ _ _ => by omega) hplain i
  obtain ⟨o', ho', hmove⟩ := hmoves id o hread
  refine ⟨o', ho', ?_⟩
  cases hmove with
  | stays => exact .refl o
  | deleted request => exact .inr (Nat.lt_succ_self _)
  | @touched s u front middle x request begun read later => exact .inl ⟨u, rfl⟩
  | @written s v p front middle x request begun read version answered =>
    have hanswer := after_done answered rest
    rw [List.append_assoc, List.singleton_append, ← hturns] at hanswer
    -- the record that is written over has the version that was read
    have hcurrent : o.version = v := by
      have hsplit : turns = front ++ i :: middle ++ i :: rest := by rw [hturns, begun.split]
      refine hfresh i s id v p _ x o ⟨request, hanswer⟩
        (.mk ⟨rfl, begun.first, begun.none_since⟩ hsplit read version ?_ ?_)
      · rw [← begun.split]
        exact hread
      · rw [← begun.split]
        exact ho'
    obtain ⟨-, hv, -⟩ := h.found begun read
    have hsmall : (x.revised s.now p).version < 2 ^ 63 := Nat.lt_of_le_of_lt hv (by omega)
    refine .inr ?_
    rw [asRead_version hsmall, hcurrent, ← version]
    exact Nat.lt_succ_self _

lemma Fresh.follows (hfresh : Fresh qs t turns) {past more rest : List Nat}
    (hturns : turns = past ++ more ++ rest) (hread : stored (after qs t past).2 id = .ok (some o)) :
    ∃ o', stored (after qs t (past ++ more)).2 id = .ok (some o') ∧ Follows o o' := by
  induction more using List.reverseRecOn generalizing rest with
  | nil => exact ⟨o, by rwa [List.append_nil], .refl o⟩
  | append_singleton more i ih =>
    have hsplit : turns = past ++ more ++ i :: rest := by rw [hturns]; simp
    obtain ⟨x, hx, hox⟩ := ih hsplit
    obtain ⟨o', ho', hxo⟩ := hfresh.follows_turn horder hbound hroom hplain hsplit hx
    exact ⟨o', by rwa [← List.append_assoc], hox.trans hxo⟩

/-- What an update writes over is what it has read, but for the last sign of life. -/
lemma Fresh.seen_only (hfresh : Fresh qs t turns) (h : Succeeds qs t turns i s id v p r)
    (hwrote : Wrote qs t turns i s id v p x c) : ∃ u, c = x.seenAt u := by
  have hcurrent := hfresh i s id v p r x c h hwrote
  obtain ⟨begun, split, read, version, found, written⟩ := hwrote
  obtain ⟨o, ho, hxo⟩ := hfresh.follows horder hbound hroom hplain split read
  obtain rfl : o = c := Option.some.inj (Except.ok.inj (ho.symm.trans found))
  rcases hxo with hseen | hlt
  · exact hseen
  · omega

/-- Versions only grow. -/
lemma Fresh.version_le (hfresh : Fresh qs t turns) {past past' : List Nat} (h : past <+: past')
    (h' : past' <+: turns) (hread : stored (after qs t past).2 id = .ok (some o))
    (hread' : stored (after qs t past').2 id = .ok (some c)) : o.version ≤ c.version := by
  obtain ⟨more, rfl⟩ := h
  obtain ⟨rest, hturns⟩ := h'
  obtain ⟨o', ho', hfollows⟩ := hfresh.follows horder hbound hroom hplain hturns.symm hread
  obtain rfl : o' = c := Option.some.inj (Except.ok.inj (ho'.symm.trans hread'))
  exact hfollows.version_le

/-- Of two updates of one version, the one that writes later does not find it any more. -/
lemma Fresh.unique (hfresh : Fresh qs t turns) {j : Nat} {s' : Stamp} {p' : Patch} {r' : Record}
    (hi : Succeeds qs t turns i s id v p r) (hj : Succeeds qs t turns j s' id v p' r') :
    i = j := by
  obtain ⟨os', hs⟩ := intact horder hbound hplain turns fun _ _ _ _ => hroom
  obtain ⟨x, c, -, hwrote⟩ := hi.wrote hs
  obtain ⟨x', c', -, hwrote'⟩ := hj.wrote hs
  have hc := hfresh i s id v p r x c hi hwrote
  have hc' := hfresh j s' id v p' r' x' c' hj hwrote'
  obtain @⟨front, middle, back, -, split, read, version, found, written⟩ := hwrote
  obtain @⟨front', middle', back', -, split', read', version', found', written'⟩ := hwrote'
  have hnext := hs.version_written hroom (split.trans (List.append_assoc _ _ _)) read s.now p
  have hnext' := hs.version_written hroom (split'.trans (List.append_assoc _ _ _)) read' s'.now p'
  have hdone : front ++ i :: middle ++ [i] <+: turns := ⟨back, by rw [split]; simp⟩
  have hdone' : front' ++ j :: middle' ++ [j] <+: turns := ⟨back', by rw [split']; simp⟩
  by_contra hne
  have hlast : front ++ i :: middle ++ [i] ≠ front' ++ j :: middle' ++ [j] := fun heq =>
    hne (List.singleton_inj.mp (List.append_inj' heq rfl).2)
  rcases List.prefix_or_prefix_of_prefix hdone hdone' with hbefore | hbefore
  · have hprefix := (List.prefix_concat_iff.mp hbefore).resolve_left hlast
    have hle := hfresh.version_le horder hbound hroom hplain hprefix
      ((List.prefix_append _ _).trans hdone') written found'
    omega
  · have hprefix := (List.prefix_concat_iff.mp hbefore).resolve_left fun heq => hlast heq.symm
    have hle := hfresh.version_le horder hbound hroom hplain hprefix
      ((List.prefix_append _ _).trans hdone) written' found
    omega

/-- **Conditional updates.** An update that succeeds has read its version, and writes what it has
read, with its changes, over whatever is there by then. If all such updates still find their
versions when they write, then all that was written in between are signs of life, so that nothing
is undone, and no two updates of one version succeed. -/
theorem conditional_updates :
    (∀ i s id v p r, Succeeds qs t turns i s id v p r →
      ∃ x c, r = x.revised s.now p ∧ Wrote qs t turns i s id v p x c) ∧
    (Fresh qs t turns →
      (∀ i s id v p r, Succeeds qs t turns i s id v p r →
        ∃ x u, r = x.revised s.now p ∧ Wrote qs t turns i s id v p x (x.seenAt u)) ∧
      ∀ i j s s' id v p p' r r', Succeeds qs t turns i s id v p r →
        Succeeds qs t turns j s' id v p' r' → i = j) := by
  obtain ⟨os', hs⟩ := intact horder hbound hplain turns fun _ _ _ _ => hroom
  refine ⟨fun i s id v p r h => h.wrote hs, fun hfresh => ⟨fun i s id v p r h => ?_, ?_⟩⟩
  · obtain ⟨x, c, hr, hwrote⟩ := h.wrote hs
    obtain ⟨u, rfl⟩ := hfresh.seen_only horder hbound hroom hplain h hwrote
    exact ⟨x, u, hr, hwrote⟩
  · intro i j s s' id v p p' r r' hi hj
    exact hfresh.unique horder hbound hroom hplain hi hj

end

end

/-! ### Calls of rivals -/

/-- A node is put on record, changed by two handles that have read the same version, and deleted. -/
def rivals : List Request :=
  [⟨⟨"a", default⟩, .create { name := "pi", address := .v4 10 0 0 1, lastSeen := default }⟩,
    ⟨⟨"", default⟩, .update "a" 1 { architecture := some "arm64" }⟩,
    ⟨⟨"", default⟩, .update "a" 1 { model := some "Pi5" }⟩, ⟨⟨"", default⟩, .delete "a"⟩]

lemma rivals_plain : ∀ q ∈ rivals, q.Plain := by
  have hplain : (default : Time.Instant).HasPlainYear := by decide
  simp [rivals, Request.Plain, Operation.HasPlainTimes, hplain]

/-- One update after the other: the second has one turn only, which is too late. -/
lemma fresh_rivals : Fresh rivals {} [0, 1, 1, 2] := by
  rintro i s id v p r x c ⟨hq, -⟩ hwrote
  have htwo := hwrote.two_turns
  have hi : i ∈ [0, 1, 1, 2] := List.count_pos_iff.mp (Nat.lt_of_lt_of_le Nat.zero_lt_two htwo)
  obtain rfl : i = 1 := by
    simp only [List.mem_cons, List.not_mem_nil, or_false] at hi
    rcases hi with rfl | rfl | rfl | rfl
    · exact absurd htwo (by decide)
    · rfl
    · rfl
    · exact absurd htwo (by decide)
  cases hq
  obtain @⟨front, middle, back, begun, split, -, -, found, -⟩ := hwrote
  have hread : ∃ o, stored (after rivals {} [0, 1]).2 "a" = .ok (some o) ∧ o.version = 1 :=
    ⟨_, rfl, by decide⟩
  have hfirst : 1 ∉ front := begun.first
  have hsince : 1 ∉ middle := begun.none_since
  obtain ⟨rfl, rfl⟩ : front = [0] ∧ middle = [] := by
    rcases front with _ | ⟨a, _ | ⟨b, front⟩⟩
    · simp at split
    · rcases middle with _ | ⟨b, middle⟩
      · simp at split
        simp [split]
      · simp at split hsince
        omega
    · simp at split hfirst
      omega
  obtain ⟨o, ho, hv⟩ := hread
  obtain rfl : o = c := Option.some.inj (Except.ok.inj (ho.symm.trans found))
  exact hv

theorem conditional_updates_for_rivals : Fresh rivals {} [0, 1, 1, 2] ∧
    ∃ r x u, Succeeds rivals {} [0, 1, 1, 2] 1 ⟨"", default⟩ "a" 1
        { architecture := some "arm64" } r ∧
      r = x.revised default { architecture := some "arm64" } ∧
      Wrote rivals {} [0, 1, 1, 2] 1 ⟨"", default⟩ "a" 1 { architecture := some "arm64" } x
        (x.seenAt u) := by
  have hsucceeds : ∃ r, Succeeds rivals {} [0, 1, 1, 2] 1 ⟨"", default⟩ "a" 1
      { architecture := some "arm64" } r := ⟨_, rfl, rfl⟩
  have hroom : 0 + [0, 1, 1, 2].length < 2 ^ 63 := by decide
  obtain ⟨r, hr⟩ := hsucceeds
  obtain ⟨-, h⟩ := conditional_updates Table.inOrder_empty (by simp) hroom rivals_plain
  obtain ⟨x, u, hx, hwrote⟩ := (h fresh_rivals).1 1 _ _ _ _ r hr
  exact ⟨fresh_rivals, r, x, u, hr, hx, hwrote⟩

/-- **Updates are lost**: two updates of one version succeed, and the later undoes the earlier one;
and an update that has read before a deletion brings the record back to life. -/
theorem updates_lost :
    (∃ r r' o, Succeeds rivals {} [0, 1, 2, 1, 2] 1 ⟨"", default⟩ "a" 1
        { architecture := some "arm64" } r ∧
      Succeeds rivals {} [0, 1, 2, 1, 2] 2 ⟨"", default⟩ "a" 1 { model := some "Pi5" } r' ∧
      stored (after rivals {} [0, 1, 2, 1, 2]).2 "a" = .ok (some o) ∧
      r.architecture = "arm64" ∧ o.architecture = "unknown") ∧
    ∃ r o, (after rivals {} [0, 1, 3, 1]).1[3]? = some (.done ⟨.delete "a", .ok true⟩) ∧
      Succeeds rivals {} [0, 1, 3, 1] 1 ⟨"", default⟩ "a" 1 { architecture := some "arm64" } r ∧
      stored (after rivals {} [0, 1, 3, 1]).2 "a" = .ok (some o) ∧ o.isLive = true := by
  have hfirst : ∃ r, Succeeds rivals {} [0, 1, 2, 1, 2] 1 ⟨"", default⟩ "a" 1
      { architecture := some "arm64" } r ∧ r.architecture = "arm64" := ⟨_, ⟨rfl, rfl⟩, rfl⟩
  have hsecond : ∃ r, Succeeds rivals {} [0, 1, 2, 1, 2] 2 ⟨"", default⟩ "a" 1
      { model := some "Pi5" } r := ⟨_, rfl, rfl⟩
  have hundone : ∃ o, stored (after rivals {} [0, 1, 2, 1, 2]).2 "a" = .ok (some o) ∧
      o.architecture = "unknown" := ⟨_, rfl, rfl⟩
  have hdeleted : (after rivals {} [0, 1, 3, 1]).1[3]? =
      some (.done ⟨.delete "a", .ok true⟩) := rfl
  have hthen : ∃ r, Succeeds rivals {} [0, 1, 3, 1] 1 ⟨"", default⟩ "a" 1
      { architecture := some "arm64" } r := ⟨_, rfl, rfl⟩
  have halive : ∃ o, stored (after rivals {} [0, 1, 3, 1]).2 "a" = .ok (some o) ∧
      o.isLive = true := ⟨_, rfl, rfl⟩
  obtain ⟨r, hr, harch⟩ := hfirst
  obtain ⟨r', hr'⟩ := hsecond
  obtain ⟨o, ho, hunknown⟩ := hundone
  obtain ⟨r'', hr''⟩ := hthen
  obtain ⟨o', ho', hlive⟩ := halive
  exact ⟨⟨r, r', o, hr, hr', ho, harch, hunknown⟩, r'', o', hdeleted, hr'', ho', hlive⟩

end NodeWatch.Store.Sql
