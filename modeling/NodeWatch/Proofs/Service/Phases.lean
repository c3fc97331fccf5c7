import NodeWatch.Proofs.Service.Looks
import NodeWatch.Service.Controls

/-!
What a service does in another phase, and which looks its background has under way.

All that a round asks of the phase is whether the service stops.
-/

namespace NodeWatch.Service

variable {s t : Service} {p q : Phase} {a : Action} {es : List Event}

/-! ### A service in another phase -/

section

@[simp] lemma inPhase_roster (s : Service) (p : Phase) : (s.inPhase p).roster = s.roster := rfl
@[simp] lemma inPhase_outbox (s : Service) (p : Phase) : (s.inPhase p).outbox = s.outbox := rfl
@[simp] lemma inPhase_looks (s : Service) (p : Phase) : (s.inPhase p).looks = s.looks := rfl
@[simp] lemma inPhase_nextLook (s : Service) (p : Phase) :
    (s.inPhase p).nextLook = s.nextLook := rfl
@[simp] lemma inPhase_phase (s : Service) (p : Phase) : (s.inPhase p).phase = p := rfl
@[simp] lemma inPhase_jammed (s : Service) (p : Phase) : (s.inPhase p).jammed = s.jammed := rfl
@[simp] lemma inPhase_settings (s : Service) (p : Phase) :
    (s.inPhase p).settings = s.settings := rfl
@[simp] lemma inPhase_busy (s : Service) (p : Phase) : (s.inPhase p).busy = s.busy := rfl
@[simp] lemma inPhase_inPhase (s : Service) (p q : Phase) :
    (s.inPhase p).inPhase q = s.inPhase q := rfl

lemma canSweep_inPhase (s : Service) (h : p = .stopping ↔ q = .stopping) :
    (s.inPhase p).canSweep = (s.inPhase q).canSweep := by
  by_cases hq : q = .stopping
  · simp [canSweep, h.mpr hq, hq]
  · simp [canSweep, mt h.mp hq, hq]

lemma commit_inPhase (s : Service) (h : p = .stopping ↔ q = .stopping) (os : List Observation)
    (now : Nat) : (s.inPhase p).commit os now =
      (((s.inPhase q).commit os now).1, ((s.inPhase q).commit os now).2.inPhase p) := by
  unfold commit
  by_cases hq : q = .stopping
  · simp only [inPhase_phase, h, hq, if_true, inPhase_inPhase]
  · simp only [inPhase_phase, h, hq, if_false]
    rfl

lemma sweep_inPhase (s : Service) (h : p = .stopping ↔ q = .stopping) (now : Nat)
    (places : Places) : (s.inPhase p).sweep now places =
      (((s.inPhase q).sweep now places).1, ((s.inPhase q).sweep now places).2.inPhase p) := by
  unfold sweep
  by_cases hq : q = .stopping
  · simp only [inPhase_phase, h, hq, if_true, inPhase_inPhase]
  · simp only [inPhase_phase, h, hq, if_false]
    rfl

lemma endLook_inPhase (s : Service) (h : p = .stopping ↔ q = .stopping) (l : Look)
    (result : Except Backend.Error (List Observation)) (now : Nat) :
    (s.inPhase p).endLook l result now =
      (((s.inPhase q).endLook l result now).1,
        ((s.inPhase q).endLook l result now).2.inPhase p) := by
  cases result with
  | ok os => exact commit_inPhase (s.closeLook l) h os now
  | error e =>
    exact commit_inPhase ((s.closeLook l).counting fun m =>
      m.sampleError s.settings.backend e.kind) h [] now

/-- Nor does more count for what observers and callers do, as long as they neither start nor stop
the service. -/
lemma step?_inPhase (h : p = .stopping ↔ q = .stopping) (ha : Controls.isFree a = true)
    (made : (s.inPhase p).step? a = some (es, t)) :
    (s.inPhase q).step? a = some (es, t.inPhase q) := by
  cases a with
  | finish l result now =>
    obtain ⟨hl, hout, he⟩ := step?_finish made
    have hend := endLook_inPhase s h.symm l result now
    rw [he] at hend
    simp only [step?, hend, inPhase_looks, inPhase_outbox] at hl hout ⊢
    rw [if_pos ⟨hl, hout⟩]
  | sweep now places =>
    simp only [step?, Option.ite_none_right_eq_some, Option.some.injEq] at made
    obtain ⟨⟨hout, hcan⟩, he⟩ := made
    have hsweep := sweep_inPhase s h.symm now places
    rw [he] at hsweep
    rw [canSweep_inPhase s h] at hcan
    simp only [step?, hsweep]
    exact if_pos ⟨hout, hcan⟩
  | tell =>
    cases ho : s.outbox with
    | nil => simp [step?, ho] at made
    | cons e rest =>
      simp only [step?, tellNext, inPhase_outbox, ho, reduceCtorEq, if_false, Option.some.injEq,
        Prod.mk.injEq] at made ⊢
      obtain ⟨rfl, rfl⟩ := made
      exact ⟨rfl, rfl⟩
  | take id =>
    simp only [step?, Option.map_eq_some_iff, Prod.exists, Prod.mk.injEq] at made ⊢
    obtain ⟨e, b, hb, rfl, rfl⟩ := made
    exact ⟨e, b, hb, rfl, rfl⟩
  | ask | subscribe name | unsubscribe id | done id =>
    simp only [step?, Option.some.injEq, Prod.mk.injEq] at made ⊢
    obtain ⟨rfl, rfl⟩ := made
    exact ⟨rfl, rfl⟩
  | _ => simp [Controls.isFree] at ha

end

/-! ### The looks of the background -/

/-- The looks of the background that are under way. -/
def own (s : Service) : List Look := s.looks.filter (·.background)

lemma own_closeLook (s : Service) (l : Look) : (s.closeLook l).own = s.own.erase l :=
  List.erase_filter.symm

lemma own_beginLook (s : Service) : (s.beginLook true).2.own = (s.beginLook true).1 :: s.own :=
  List.filter_cons_of_pos rfl

lemma own_endLook (s : Service) (l : Look) (result : Except Backend.Error (List Observation))
    (now : Nat) : (s.endLook l result now).2.own = s.own.erase l := by
  obtain ⟨t, ht, -, -, -, -, hlooks, -⟩ := s.endLook_eq l result now
  rw [ht, own, (t.commit_frame (seen result) now).2.2.2.1, hlooks]
  exact List.erase_filter.symm

/-- The end of a look leaves settings as they are, and no stop fails by it. -/
lemma endLook_keeps (s : Service) (l : Look) (result : Except Backend.Error (List Observation))
    (now : Nat) : (s.endLook l result now).2.settings = s.settings ∧
      (s.endLook l result now).2.jammed = s.jammed := by
  obtain ⟨t, ht, -, hsettings, -, hjammed, -, -⟩ := s.endLook_eq l result now
  obtain ⟨hsettings', -, hjammed', -⟩ := t.commit_frame (seen result) now
  rw [ht]
  exact ⟨hsettings'.trans hsettings, hjammed'.trans hjammed⟩

lemma own_sweep (s : Service) (now : Nat) (places : Places) :
    (s.sweep now places).2.own = s.own := by
  rw [own, (s.sweep_frame now places).2.2.2.1]
  rfl

lemma isBusy_eq_false_of_own (h : s.own = []) : s.isBusy = false := by
  rw [isBusy_eq_false_iff, busy, List.countP_eq_length_filter]
  exact List.length_eq_zero_iff.mpr h

/-- Callers begin and end no look of the background. -/
lemma own_of_isFree (ha : Controls.isFree a = true) (made : s.step? a = some (es, t)) :
    t.own = s.own := by
  rw [own, (step?_frame made).looks]
  cases a with
  | ask => exact List.filter_cons_of_neg (by simp)
  | finish l result now =>
    have hnot : l ∉ s.looks.filter (·.background) := fun hl => by
      have hb : l.background = true := (List.mem_filter.mp hl).2
      simp [Controls.isFree, hb] at ha
    rw [looksAfter, ← List.erase_filter, List.erase_of_not_mem hnot]
    rfl
  | tick | abandon l | jam now => simp [Controls.isFree] at ha
  | _ => rfl

/-- Nor does a stop fail by what they do. -/
lemma jammed_of_isFree (ha : Controls.isFree a = true) (made : s.step? a = some (es, t)) :
    t.jammed = s.jammed := by
  rw [(step?_frame made).jammed]
  cases a with
  | jam now => simp [Controls.isFree] at ha
  | _ => rfl

end NodeWatch.Service
