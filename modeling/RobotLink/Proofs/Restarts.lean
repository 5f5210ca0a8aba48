import Mathlib
import RobotLink.Proofs.TimerViews

/-! A reset as a fresh start. It leaves the timers their matches to come and their counts, but enabling one
schedules its match anew and nothing counts by the count, so the clock goes on as a fresh one does that
holds the same timers disabled. -/
namespace RobotLink
namespace Timer

def shown (t : Timer) : Timer :=
  { t with nextMatch := if t.enabled then t.nextMatch else .zero, fires := 0 }

theorem shownOn {t : Timer} (on : t.enabled = true) : t.shown = { t with fires := 0 } := by
  rw [shown, if_pos on]

theorem rebaseShown (t : Timer) (period : UInt64) (now : Ticks) :
    (t.shown.rebase period now).map shown = (t.rebase period now).map shown := by
  cases on : t.enabled with
  | true =>
    rw [shownOn on]
    unfold rebase
    simp only [apply_ite (Except.map shown), mapBind]
    rfl
  | false =>
    simp only [rebase, on, Bool.not_false, if_true, Except.map, shown, Bool.false_eq_true, if_false]

theorem switchShown (t : Timer) (enabled : Bool) (now : Ticks) :
    (t.shown.switch enabled now).map shown = (t.switch enabled now).map shown := by
  have same : t.shown.enabled = t.enabled := rfl
  unfold switch
  rw [same]
  split
  · simp only [Except.map, shown]
    split <;> rfl
  split
  · unfold arm
    simp only [mapBind, bind_assoc, pure_bind]
    rfl
  · simp [Except.map, shown, setEnabled]

theorem shownFaithful : Faithful shown where
  twice t := by
    simp only [shown]
    split <;> rfl
  takesPart _ := rfl
  next t on := by
    simp only [schedulable, Bool.and_eq_true] at on
    rw [shownOn on.1]
  matched t on := by
    simp only [schedulable, Bool.and_eq_true] at on
    rw [shownOn on.1, rearm, rearm, mapBind, mapBind]
    rfl
  disabled t := by simp [shown, setEnabled]
  set {op} _ _ sets now t := by
    cases op with
    | enable id enabled =>
      cases sets
      exact switchShown t enabled now
    | setCompare id compare =>
      cases sets
      exact rebaseShown { t with compare } _ now
    | setPrescaler id prescaler =>
      cases sets
      exact rebaseShown { t with prescaler } _ now
    | _ => cases sets

end Timer

namespace Clock
variable {World : Type} {c f : Clock}

structure Renews (f c : Clock) : Prop where
  targetSpeed : f.targetSpeed = c.targetSpeed
  cpuUsage : f.cpuUsage = c.cpuUsage
  state : f.state = c.state
  nextId : f.nextId = c.nextId
  current : f.current = .zero
  owed : f.owed = 0
  tickFraction : f.tickFraction = 0
  lastStep : f.lastStep = none
  stats : f.stats = .fresh
  disabled : ∀ entry ∈ f.timers, entry.2.enabled = false
  timers : f.timers.map (fun (id, t) => (id, t.compare, t.prescaler)) =
    c.timers.map fun (id, t) => (id, t.compare, t.prescaler)

theorem shownDisabled {t u : Timer} (own : t.Proportioned) (other : u.Proportioned)
    (settings : (t.compare, t.prescaler) = (u.compare, u.prescaler)) (off : u.enabled = false) :
    (t.setEnabled false).shown = u.shown := by
  obtain ⟨compare, prescaler⟩ := Prod.mk.inj settings
  have period : t.period = u.period := by
    rw [show t.period = _ from own, show u.period = _ from other, compare, prescaler]
  simp only [Timer.shown, Timer.setEnabled, off, compare, prescaler, period, Bool.false_eq_true, if_false]

theorem seenDisabled {timers others : List (TimerId × Timer)} (periods : ∀ entry ∈ timers, entry.2.Proportioned)
    (otherPeriods : ∀ entry ∈ others, entry.2.Proportioned) (disabled : ∀ entry ∈ others, entry.2.enabled = false)
    (same : others.map (fun (id, t) => (id, t.compare, t.prescaler)) =
      timers.map fun (id, t) => (id, t.compare, t.prescaler)) :
    seenOf Timer.shown (timers.map fun (id, t) => (id, t.setEnabled false)) = seenOf Timer.shown others := by
  induction timers generalizing others with
  | nil =>
    obtain rfl := List.map_eq_nil_iff.1 same
    rfl
  | cons head timers ih =>
    cases others with
    | nil => cases same
    | cons other others =>
      obtain ⟨id, t⟩ := head
      obtain ⟨otherId, u⟩ := other
      obtain ⟨first, rest⟩ := List.cons.inj same
      obtain ⟨rfl, settings⟩ := Prod.mk.inj first
      obtain ⟨own, ownRest⟩ := List.forall_mem_cons.1 periods
      obtain ⟨otherOwn, otherRest⟩ := List.forall_mem_cons.1 otherPeriods
      obtain ⟨off, offRest⟩ := List.forall_mem_cons.1 disabled
      rw [List.map_cons, seenCons, seenCons, shownDisabled own otherOwn settings.symm off,
        ih ownRest otherRest offRest rest]

/-- A reachable clock that is reset goes on as any reachable one that renews it: the same outcomes up to the
same fault, whatever the callback, and the same clock in the end but for counts and the matches of disabled
timers. -/
theorem resetRenews (reached : c.Reachable) (made : f.Reachable) (renews : f.Renews c)
    (callback : Callback World) (world : World) {ops : List Operation} (unsaved : ∀ op ∈ ops, op.unsaved) :
    (c.reset.run callback world ops).1 = (f.run callback world ops).1 ∧
      (c.reset.run callback world ops).2.map (fun (d, world) => (d.seen Timer.shown, world)) =
        (f.run callback world ops).2.map fun (d, world) => (d.seen Timer.shown, world) := by
  have timers := seenDisabled reached.sound.periods made.sound.periods renews.disabled renews.timers
  refine runSeenAlike Timer.shownFaithful callback ?_ world unsaved
  simp only [seen, reset, timers, renews.targetSpeed, renews.cpuUsage, renews.state, renews.nextId, renews.current,
    renews.owed, renews.tickFraction, renews.lastStep, renews.stats]

theorem scheduleForgotten :
    let c : Clock := { fresh with
      timers := [(⟨1⟩, ⟨true, 5, 3, 15, ⟨0, 45⟩, 2⟩)], nextId := 2, current := ⟨0, 37⟩ }
    let f : Clock := { fresh with timers := [(⟨1⟩, ⟨false, 5, 3, 15, ⟨0, 0⟩, 0⟩)], nextId := 2 }
    let ops : List Operation :=
      [.setCompare ⟨1⟩ 0, .enable ⟨1⟩ true, .advance 50, .setCompare ⟨1⟩ 4, .start, .step 0, .step 3125, .remove ⟨0⟩]
    c.Reachable ∧ f.Reachable ∧ f.Renews c ∧ (∀ op ∈ ops, op.unsaved) ∧
      (c.reset.run .record [] ops).1 = (f.run .record [] ops).1 ∧
      (c.reset.run .record [] ops).2.map (·.2) = .ok [⟨⟨1⟩, ⟨0, 74⟩⟩, ⟨⟨1⟩, ⟨0, 62⟩⟩] := by
  intro c f ops
  let before : List Operation :=
    [.create, .create, .setPrescaler ⟨1⟩ 3, .setCompare ⟨1⟩ 5, .enable ⟨1⟩ true, .remove ⟨0⟩, .advance 37]
  let making : List Operation :=
    [.create, .setPrescaler ⟨0⟩ 9, .create, .remove ⟨0⟩, .setPrescaler ⟨1⟩ 3, .setCompare ⟨1⟩ 5]
  have ran : (fresh.run .record [] before).2 = .ok (c, [⟨⟨1⟩, ⟨0, 30⟩⟩, ⟨⟨1⟩, ⟨0, 15⟩⟩]) := by cbv
  have reached : c.Reachable := Reachable.fresh.run ran
  have set : (fresh.run .record [] making).2 = .ok (f, []) := by cbv
  have made : f.Reachable := Reachable.fresh.run set
  have renews : f.Renews c := ⟨rfl, rfl, rfl, rfl, rfl, rfl, rfl, rfl, rfl, by decide, rfl⟩
  have unsaved : ∀ op ∈ ops, op.unsaved := by decide
  obtain ⟨outcomes, last⟩ := resetRenews reached made renews .record [] unsaved
  refine ⟨reached, made, renews, unsaved, outcomes, ?_⟩
  have fired : (f.run .record [] ops).2.map (·.2) = .ok [⟨⟨1⟩, ⟨0, 74⟩⟩, ⟨⟨1⟩, ⟨0, 62⟩⟩] := by cbv
  have same := congrArg (Except.map (·.2)) last
  rw [mapThen, mapThen] at same
  exact same.trans fired

end Clock
end RobotLink
