import Mathlib
import RobotLink.Proofs.ClockChanges
import RobotLink.Proofs.SaveFiles

/-! Where the instants that a clock holds come from. Every sum of ticks is normalized, so an
operation leaves only instants that are normalized or were there before; the one other source is
a state that is loaded, of which a file tells any words whatever. -/
namespace RobotLink

structure Ticks.Numeric (a b : Ticks) : Prop where
  less : a < b ↔ a.get < b.get
  notGreater : a ≤ b ↔ a.get ≤ b.get
  negative : a.get < b.get → a.checkedSub b = .ok none
  difference : b.get ≤ a.get → ∃ d, a.checkedSub b = .ok (some d) ∧ d.get = a.get - b.get
  saturating : ∃ d, a.saturatingSub b = .ok d ∧ d.get = a.get - b.get

theorem Ticks.numericOfNormalized {a b : Ticks} (first : a.Normalized) (second : b.Normalized) : a.Numeric b := by
  have order := ltGet first second
  have none (early : a.get < b.get) : a.checkedSub b = .ok .none := if_pos (order.2 early)
  refine ⟨order, leGet first second, none, fun ordered => ?_, ?_⟩
  · obtain ⟨d, difference, _, sum⟩ := checkedSubMeets first second ordered
    exact ⟨d, difference, by omega⟩
  · by_cases ordered : b.get ≤ a.get
    · obtain ⟨d, difference, _, sum⟩ := saturatingSubMeets first second ordered
      exact ⟨d, difference, by omega⟩
    · refine ⟨.zero, ?_, ?_⟩
      · rw [saturatingSub, none (by omega)]
        rfl
      · rw [show zero.get = 0 from rfl]
        omega

def ClockSnapshot.instants (s : ClockSnapshot) : List Ticks := s.current :: s.timers.map (·.nextMatch)

namespace Clock
variable {World : Type} {callback : Callback World} {c d : Clock} {world later : World}

section
variable {P : Ticks → Prop}

theorem adjustedInstant (normalized : ∀ t : Ticks, t.Normalized → P t) {now : Ticks} {t u : Timer}
    (adjusted : Timer.Adjusted now t u) (before : P t.nextMatch) : P u.nextMatch := by
  cases adjusted with
  | idle off exact =>
    rcases exact with same | exact
    · exact same ▸ before
    · exact normalized _ exact
  | kept same => exact same ▸ before
  | whole exact next => exact normalized _ exact
  | scaled on distance exact next => exact normalized _ exact

theorem changedInstants (normalized : ∀ t : Ticks, t.Normalized → P t) {ticks : Nat}
    (change : Change callback c world ticks d later) (before : ∀ t ∈ instants c.current c.timers, P t) :
    ∀ t ∈ instants d.current d.timers, P t := by
  cases change with
  | still current owed entries =>
    obtain ⟨now, next⟩ := instantsAll.1 before
    refine instantsAll.2 ⟨current ▸ now, fun entry member => ?_⟩
    obtain new | ⟨t, old, adjusted⟩ := entries entry member
    · exact normalized _ (new ▸ by decide)
    · exact adjustedInstant normalized adjusted (next _ old)
  | advanced advance current owed timers currentAfter owedAfter timersAfter =>
    rw [← current, ← timers] at before
    rw [currentAfter, timersAfter]
    exact advancedInstants normalized advance before

end

section
variable {saved : TimerSnapshot} {timers after : List (TimerId × Timer)}

theorem restoreNone (h : restoreTimer? saved timers = none) : ∀ entry ∈ timers, entry.1 ≠ ⟨saved.id⟩ := by
  induction timers with
  | nil => nofun
  | cons head rest ih =>
    unfold restoreTimer? at h
    split at h
    next => cases h
    next differs =>
      refine List.forall_mem_cons.2 ⟨fun same => differs (congrArg TimerId.id same), ih ?_⟩
      exact Option.map_eq_none_iff.1 h

theorem restoreEntries (h : restoreTimer? saved timers = some after) (distinct : (timers.map Prod.fst).Nodup) :
    ∀ entry ∈ after, entry ∈ timers ∧ entry.1 ≠ ⟨saved.id⟩ ∨ entry.1 = ⟨saved.id⟩ ∧
      ∃ t : Timer, entry.2 = t.restore saved.enabled saved.compare saved.prescaler saved.nextMatch := by
  induction timers generalizing after with
  | nil => cases h
  | cons head rest ih =>
    obtain ⟨id, t⟩ := head
    obtain ⟨first, others⟩ := List.nodup_cons.1 distinct
    unfold restoreTimer? at h
    split at h
    next same =>
      cases h
      have own : id = ⟨saved.id⟩ := congrArg TimerId.mk same
      refine List.forall_mem_cons.2 ⟨.inr ⟨own, t, rfl⟩, fun entry member => .inl ⟨List.mem_cons_of_mem _ member, ?_⟩⟩
      intro again
      exact first (List.mem_map.2 ⟨entry, member, again.trans own.symm⟩)
    next differs =>
      obtain ⟨later, restored, rfl⟩ := Option.map_eq_some_iff.1 h
      refine List.forall_mem_cons.2 ⟨.inl ⟨List.mem_cons_self, fun same => differs (congrArg TimerId.id same)⟩, ?_⟩
      intro entry member
      rcases ih restored others entry member with ⟨old, other⟩ | restored
      · exact .inl ⟨List.mem_cons_of_mem _ old, other⟩
      · exact .inr restored

theorem restoresEntries (saved : List TimerSnapshot) (distinct : (timers.map Prod.fst).Nodup) :
    ∀ entry ∈ (restoreTimers saved timers).2, (entry ∈ timers ∧ ∀ s ∈ saved, entry.1 ≠ ⟨s.id⟩) ∨
      ∃ s ∈ saved, entry.1 = ⟨s.id⟩ ∧ ∃ t : Timer, entry.2 = t.restore s.enabled s.compare s.prescaler s.nextMatch := by
  induction saved generalizing timers with
  | nil => exact fun entry member => .inl ⟨member, nofun⟩
  | cons first rest ih =>
    intro entry member
    unfold restoreTimers at member
    split at member
    next after restored =>
      have kept : (after.map Prod.fst).Nodup := (restoreKeeps restored).1 ▸ distinct
      rcases ih kept entry member with ⟨old, others⟩ | ⟨s, listed, own⟩
      · rcases restoreEntries restored distinct entry old with ⟨before, other⟩ | own
        · exact .inl ⟨before, List.forall_mem_cons.2 ⟨other, others⟩⟩
        · exact .inr ⟨first, List.mem_cons_self, own⟩
      · exact .inr ⟨s, List.mem_cons_of_mem _ listed, own⟩
    next unknown =>
      rcases ih distinct entry member with ⟨old, others⟩ | ⟨s, listed, own⟩
      · exact .inl ⟨old, List.forall_mem_cons.2 ⟨restoreNone unknown entry old, others⟩⟩
      · exact .inr ⟨s, List.mem_cons_of_mem _ listed, own⟩

end

section
variable {P : Ticks → Prop}

theorem loadedInstants {s : ClockSnapshot} (sound : c.Sound) (before : ∀ t ∈ instants c.current c.timers, P t)
    (loaded : ∀ t ∈ s.instants, P t) : ∀ t ∈ instants (c.load s).2.current (c.load s).2.timers, P t := by
  obtain ⟨now, next⟩ := List.forall_mem_cons.1 loaded
  refine instantsAll.2 ⟨now, fun entry member => ?_⟩
  rcases restoresEntries s.timers sound.distinct entry member with ⟨old, _⟩ | ⟨saved, listed, _, t, restored⟩
  · exact (instantsAll.1 before).2 entry old
  · rw [restored]
    exact next _ (List.mem_map_of_mem listed)

theorem performedInstants (normalized : ∀ t : Ticks, t.Normalized → P t) {op : Operation} {outcome : Outcome}
    (sound : c.Sound) (h : c.perform callback world op = .ok (outcome, d, later))
    (loaded : ∀ s, op = .load s → ∀ t ∈ s.instants, P t) (before : ∀ t ∈ instants c.current c.timers, P t) :
    ∀ t ∈ instants d.current d.timers, P t := by
  by_cases onward : op.onward
  · exact changedInstants normalized (performChanges h onward) before
  · cases op with
    | reset =>
      cases h
      obtain ⟨_, next⟩ := instantsAll.1 before
      refine instantsAll.2 ⟨normalized .zero (by decide), fun entry member => ?_⟩
      obtain ⟨old, place, rfl⟩ := List.mem_map.1 member
      exact next old place
    | load saved =>
      cases h
      exact loadedInstants sound before (loaded saved rfl)
    | _ => exact absurd rfl onward

theorem ranInstants (normalized : ∀ t : Ticks, t.Normalized → P t) {ops : List Operation} (sound : c.Sound)
    (h : (c.run callback world ops).2 = .ok (d, later)) (loaded : ∀ s, .load s ∈ ops → ∀ t ∈ s.instants, P t)
    (before : ∀ t ∈ instants c.current c.timers, P t) : ∀ t ∈ instants d.current d.timers, P t := by
  induction ops generalizing c world with
  | nil => cases h; exact before
  | cons op rest ih =>
    obtain ⟨_, _, _, performed, onward, _⟩ := runOk h
    have first := performedInstants normalized sound performed
      (fun s same => loaded s (same ▸ List.mem_cons_self)) before
    exact ih (sound.performed performed) onward (fun s member => loaded s (List.mem_cons_of_mem _ member)) first

end

/-- After any operations each instant of a clock is normalized or stands in a state that was loaded
on the way. So as long as the loaded states are normalized, the instants that a sweep of an advance
goes by compare and subtract as their numbers do, wherever it stands. -/
theorem instantsNumeric {ops : List Operation} (ran : (fresh.run callback world ops).2 = .ok (c, later)) :
    (∀ t ∈ instants c.current c.timers, t.Normalized ∨ ∃ s, .load s ∈ ops ∧ t ∈ s.instants) ∧
    ((∀ s, .load s ∈ ops → ∀ t ∈ s.instants, t.Normalized) →
      (∀ t ∈ instants c.current c.timers, t.Normalized) ∧
      ∀ {World : Type} (callback : Callback World) (world : World) (delta : UInt64) (target : Ticks)
        (cap : Option Nat) (s : Sweep World),
        (do (← c.current.addCount c.owed).addCount delta) = .ok target →
        Relation.ReflTransGen (fun s n => s.next callback target cap = .ok (.fired n))
          ⟨c.current, c.timers, 0, world⟩ s →
        ∀ a ∈ target :: instants s.current s.timers, ∀ b ∈ target :: instants s.current s.timers,
          a.Normalized ∧ a.Numeric b) := by
  have fresh := Reachable.fresh.sound
  refine ⟨?_, fun loaded => ?_⟩
  · refine ranInstants (P := fun t => t.Normalized ∨ ∃ s, .load s ∈ ops ∧ t ∈ s.instants) (fun t => .inl) fresh ran
      (fun s member t own => .inr ⟨s, member, own⟩) ?_
    exact List.forall_mem_singleton.2 (.inl (by decide))
  · have all := ranInstants (fun t exact => exact) fresh ran loaded (List.forall_mem_singleton.2 (by decide))
    refine ⟨all, fun callback world delta target cap s sum reached => ?_⟩
    obtain ⟨middle, _, last⟩ := bindOk sum
    have swept : ∀ t ∈ instants s.current s.timers, t.Normalized := by
      induction reached with
      | refl => exact all
      | tail _ next kept =>
        obtain ⟨_, _, _, _, serves⟩ := Sweep.nextServes next
        exact servedInstants (fun t exact => exact) serves kept
    have both := List.forall_mem_cons.2 ⟨(Ticks.addCountOk last).1, swept⟩
    exact fun a first b second => ⟨both a first, Ticks.numericOfNormalized (both a first) (both b second)⟩

theorem acrossCycles :
    let s : ClockSnapshot := ⟨⟨1, 999999⟩, 5, 8000000, .low, [⟨0, true, 400000, 2, ⟨2, 100⟩⟩]⟩
    let ops : List Operation := [.create, .load s]
    let c : Clock := { fresh with
      current := ⟨1, 999999⟩, owed := 5, cpuUsage := .low, nextId := 1
      timers := [(⟨0⟩, ⟨true, 400000, 2, 800000, ⟨2, 100⟩, 0⟩)] }
    (fresh.run .record [] ops).2 = .ok (c, []) ∧ (∀ s, .load s ∈ ops → ∀ t ∈ s.instants, t.Normalized) ∧
      (do (← c.current.addCount c.owed).addCount 10) = .ok ⟨2, 14⟩ ∧ Ticks.Numeric ⟨2, 100⟩ c.current ∧
      Ticks.Numeric ⟨2, 100⟩ ⟨2, 14⟩ := by
  intro s ops c
  have ran : (fresh.run .record [] ops).2 = .ok (c, []) := by cbv
  have loaded : ∀ s, .load s ∈ ops → ∀ t ∈ s.instants, t.Normalized := by
    intro saved member
    rcases List.mem_cons.1 member with own | own
    · cases own
    · cases List.mem_singleton.1 own
      decide
  have sum : (do (← c.current.addCount c.owed).addCount 10) = .ok ⟨2, 14⟩ := by cbv
  have numeric := ((instantsNumeric ran).2 loaded).2 .record [] 10 _ (some 1000) _ sum .refl
  refine ⟨ran, loaded, sum, ?_, ?_⟩
  · exact (numeric _ (by decide) _ (by decide)).2
  · exact (numeric _ (by decide) _ (by decide)).2

theorem loadedApart :
    let s : ClockSnapshot := ⟨⟨0, 2000000⟩, 0, 8000000, .normal, [⟨0, true, 5, 1, ⟨1, 0⟩⟩]⟩
    let c : Clock := { fresh with
      current := ⟨0, 2000000⟩, nextId := 1, timers := [(⟨0⟩, ⟨true, 5, 1, 5, ⟨1, 0⟩, 0⟩)] }
    SaveState.decode (SaveState.encode s) = .ok s ∧ (fresh.run .record [] [.create, .load s]).2 = .ok (c, []) ∧
      ¬ c.current.Normalized ∧ c.current < ⟨1, 0⟩ ∧ Ticks.get ⟨1, 0⟩ < c.current.get ∧
      Ticks.checkedSub ⟨1, 0⟩ c.current = .error .subOverflow ∧
      c.perform .record [] (.setCompare ⟨0⟩ 10) = .error .subOverflow := by
  intro s c
  exact ⟨SaveState.decodeEncode (by decide), by cbv, by decide, by decide, by decide, by cbv, by cbv⟩

end Clock

end RobotLink
