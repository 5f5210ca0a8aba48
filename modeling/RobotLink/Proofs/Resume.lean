import Mathlib
import RobotLink.Proofs.Sweep
import RobotLink.Proofs.TimerViews

/-! Resuming from a saved state. A snapshot leaves out how often timers matched and the
bookkeeping of wall time; no operation but a step of wall time depends on those, so a clock with
the same timers goes on from the snapshot as the saved one does. -/
namespace RobotLink

def Timer.forget (t : Timer) : Timer := { t with fires := 0 }

namespace Clock

def forgetAll (timers : List (TimerId × Timer)) : List (TimerId × Timer) :=
  timers.map fun (id, t) => (id, t.forget)

def forget (c : Clock) : Clock :=
  { c with
    timers := forgetAll c.timers
    tickFraction := 0, state := .stopped, lastStep := none, stats := .fresh }

def Operation.ofWallTime : Operation → Bool
  | .step _ => true
  | _ => false

def timeless (c : Clock) : Clock := { c with tickFraction := 0, state := .stopped, lastStep := none, stats := .fresh }

theorem forgetOf (c : Clock) : c.forget = (c.seen Timer.forget).timeless := rfl

theorem forgetFaithful : Timer.Faithful Timer.forget where
  twice _ := rfl
  takesPart _ := rfl
  next _ _ := rfl
  matched t _ := by
    simp only [Timer.rearm, mapBind]
    rfl
  disabled _ := rfl
  set {op} _ _ sets now t := by
    have rebased (t : Timer) (period : UInt64) :
        (t.forget.rebase period now).map Timer.forget = (t.rebase period now).map Timer.forget := by
      simp only [Timer.rebase, apply_ite (Except.map Timer.forget), mapBind]
      rfl
    cases op with
    | enable id enabled =>
      cases sets
      simp only [Timer.switch, Timer.arm, apply_ite (Except.map Timer.forget), mapBind, bind_assoc, pure_bind]
      rfl
    | setCompare id compare => cases sets; exact rebased { t with compare } _
    | setPrescaler id prescaler => cases sets; exact rebased { t with prescaler } _
    | _ => cases sets

theorem restoreForget (saved : TimerSnapshot) (timers : List (TimerId × Timer)) :
    restoreTimer? saved (forgetAll timers) = (restoreTimer? saved timers).map forgetAll := by
  induction timers with
  | nil => rfl
  | cons head rest ih =>
    obtain ⟨other, t⟩ := head
    change restoreTimer? saved ((other, t.forget) :: forgetAll rest) = _
    simp only [restoreTimer?, ih]
    split
    · rfl
    · cases restoreTimer? saved rest <;> rfl

theorem restoresForget (saved : List TimerSnapshot) (timers : List (TimerId × Timer)) :
    restoreTimers saved (forgetAll timers) =
      ((restoreTimers saved timers).1, forgetAll (restoreTimers saved timers).2) := by
  induction saved generalizing timers with
  | nil => rfl
  | cons head rest ih =>
    simp only [restoreTimers, restoreForget]
    cases restoreTimer? head timers with
    | none => simp only [Option.map_none, ih]
    | some restored => exact ih restored

theorem forgetTwice (timers : List (TimerId × Timer)) : forgetAll (forgetAll timers) = forgetAll timers :=
  List.map_map

def forgetEnd {World : Type} : Outcome × Clock × World → Outcome × Clock × World :=
  fun (outcome, c, world) => (outcome, c.forget, world)

def timelessEnd {World : Type} : Outcome × Clock × World → Outcome × Clock × World :=
  fun (outcome, c, world) => (outcome, c.timeless, world)

section
variable {World : Type} {c : Clock} {world : World}

theorem forgetForget (c : Clock) : c.forget.forget = c.forget := by
  simp only [forget, forgetTwice]

theorem saveForget (c : Clock) : c.forget.save = c.save := by
  simp only [save, forget, forgetAll, List.map_map]
  rfl

theorem settleTimeless (result : Except ClockError Clock) :
    (c.timeless.settle world (result.map timeless)).map timelessEnd = (c.settle world result).map timelessEnd := by
  cases result with
  | ok d => rfl
  | error e => cases e <;> rfl

theorem advanceTimeless (callback : Callback World) (c : Clock) (world : World) (delta : UInt64) :
    c.timeless.advance callback world delta =
      (c.advance callback world delta).map fun (a, d, world) => (a, d.timeless, world) := by
  simp only [advance, mapBind, apply_ite (Except.map _)]
  rfl

theorem performTimeless (callback : Callback World) (c : Clock) (world : World) {op : Operation}
    (simulated : op.ofWallTime = false) :
    (c.timeless.perform callback world op).map timelessEnd = (c.perform callback world op).map timelessEnd := by
  cases sets : op.setting? with
  | some set =>
    obtain ⟨id, change⟩ := set
    have done : c.timeless.onTimer id (change c.current) = (c.onTimer id (change c.current)).map timeless := by
      simp only [onTimer, mapBind]
      rfl
    rw [performSets sets, performSets sets]
    exact (congrArg (fun result => (c.timeless.settle world result).map timelessEnd) done).trans (settleTimeless _)
  | none =>
    cases op with
    | enable | setCompare | setPrescaler => cases sets
    | step => cases simulated
    | create =>
      simp only [perform, createTimer, apply_ite (Except.map _)]
      rfl
    | remove id =>
      have done : c.timeless.removeTimer id = (c.removeTimer id).map timeless := by
        simp only [removeTimer, apply_ite (Except.map _)]
        rfl
      simp only [perform, done]
      exact settleTimeless _
    | setCpuUsage | setTargetSpeed | stop | reset | save | load => rfl
    | start =>
      simp only [perform, Except.map, timelessEnd, start]
      split <;> split <;> rfl
    | advance delta =>
      simp only [perform, advanceTimeless, mapThen]
      rfl

theorem performForget (callback : Callback World) (c : Clock) (world : World) {op : Operation}
    (simulated : op.ofWallTime = false) :
    (c.forget.perform callback world op).map forgetEnd = (c.perform callback world op).map forgetEnd := by
  have both (x : Except Fault (Outcome × Clock × World)) :
      x.map forgetEnd = (x.map timelessEnd).map (seenEnd Timer.forget) := by
    rw [mapThen]
    rfl
  have others (x : Except Fault (Outcome × Clock × World)) :
      x.map forgetEnd = (x.map (seenEnd Timer.forget)).map timelessEnd := by
    rw [mapThen]
    rfl
  cases op with
  | save => simp only [perform, Except.map, forgetEnd, saveForget, forgetForget]
  | load saved => simp only [perform, Except.map, forgetEnd, load, forget, restoresForget, forgetTwice]
  | _ =>
    rw [both, forgetOf, performTimeless callback _ world simulated, ← both, others,
      performSeen forgetFaithful callback c world rfl, ← others]

theorem runAlike (callback : Callback World) {c d : Clock} (alike : c.forget = d.forget) (world : World)
    {ops : List Operation} (simulated : ∀ op ∈ ops, op.ofWallTime = false) :
    (c.run callback world ops).1 = (d.run callback world ops).1 ∧
      (c.run callback world ops).2.map (fun (e, world) => (e.forget, world)) =
        (d.run callback world ops).2.map fun (e, world) => (e.forget, world) := by
  refine runHiding (fun op member c d world same => ?_) alike world
  have left := performForget callback c world (simulated op member)
  rw [same, performForget callback d world (simulated op member)] at left
  exact left.symm

end

section
variable {a b : Clock} {saved : List TimerSnapshot} {timers : List (TimerId × Timer)}

theorem restoresSkip {id : TimerId} {t : Timer} (other : ∀ s ∈ saved, id ≠ ⟨s.id⟩) :
    restoreTimers saved ((id, t) :: timers) =
      ((restoreTimers saved timers).1, (id, t) :: (restoreTimers saved timers).2) := by
  induction saved generalizing timers with
  | nil => rfl
  | cons s rest ih =>
    obtain ⟨first, others⟩ := List.forall_mem_cons.1 other
    have differs : id.id ≠ s.id := fun same => first (congrArg TimerId.mk same)
    simp only [restoreTimers, restoreTimer?, differs, if_false]
    cases restoreTimer? s timers with
    | none => simp only [Option.map_none, ih others]
    | some restored => exact ih others

theorem restoresAll (listed : saved.map (fun s => TimerId.mk s.id) = timers.map Prod.fst)
    (distinct : (timers.map Prod.fst).Nodup) :
    (restoreTimers saved timers).1 = 0 ∧
      (restoreTimers saved timers).2.map (fun (id, t) => saveTimer id t) = saved ∧
      ∀ entry ∈ (restoreTimers saved timers).2, entry.2.Proportioned := by
  induction saved generalizing timers with
  | nil =>
    obtain rfl := List.map_eq_nil_iff.1 listed.symm
    exact ⟨rfl, rfl, fun entry member => (List.not_mem_nil member).elim⟩
  | cons s rest ih =>
    cases timers with
    | nil => cases listed
    | cons head timers =>
      obtain ⟨id, t⟩ := head
      obtain ⟨rfl, later⟩ := List.cons.inj listed
      obtain ⟨fresh, others⟩ := List.nodup_cons.1 distinct
      obtain ⟨none, same, periods⟩ := ih later others
      have skip : ∀ u ∈ rest, TimerId.mk s.id ≠ ⟨u.id⟩ := by
        intro u member same
        rw [← later] at fresh
        exact fresh (List.mem_map.2 ⟨u, member, same.symm⟩)
      simp only [restoreTimers, restoreTimer?, if_true, restoresSkip skip]
      exact ⟨none, congrArg _ same, List.forall_mem_cons.2 ⟨rfl, periods⟩⟩

theorem loadSaves {s : ClockSnapshot} (distinct : b.ids.Nodup)
    (listed : s.timers.map (fun t => TimerId.mk t.id) = b.ids) :
    (b.load s).1 = 0 ∧ (b.load s).2.save = s ∧ ∀ entry ∈ (b.load s).2.timers, entry.2.Proportioned := by
  obtain ⟨none, same, periods⟩ := restoresAll listed distinct
  refine ⟨none, ?_, periods⟩
  simp only [load, save, same]

theorem forgetOfSave {timers others : List (TimerId × Timer)} (periods : ∀ entry ∈ timers, entry.2.Proportioned)
    (otherPeriods : ∀ entry ∈ others, entry.2.Proportioned)
    (saved : timers.map (fun (id, t) => saveTimer id t) = others.map fun (id, t) => saveTimer id t) :
    forgetAll timers = forgetAll others := by
  induction timers generalizing others with
  | nil =>
    obtain rfl := List.map_eq_nil_iff.1 saved.symm
    rfl
  | cons head timers ih =>
    cases others with
    | nil => cases saved
    | cons other others =>
      obtain ⟨⟨id⟩, t⟩ := head
      obtain ⟨⟨otherId⟩, u⟩ := other
      obtain ⟨same, rest⟩ := List.cons.inj saved
      obtain ⟨own, ownRest⟩ := List.forall_mem_cons.1 periods
      obtain ⟨otherOwn, otherRest⟩ := List.forall_mem_cons.1 otherPeriods
      obtain ⟨rfl, enabled, compare, prescaler, next⟩ := TimerSnapshot.mk.inj same
      have period : t.period = u.period := by
        rw [show t.period = _ from own, show u.period = _ from otherOwn, compare, prescaler]
      have alike : t.forget = u.forget := by
        simp only [Timer.forget, enabled, compare, prescaler, next, period]
      change (_, t.forget) :: forgetAll timers = (_, u.forget) :: forgetAll others
      rw [alike, ih ownRest otherRest rest]

theorem alikeOfSave (periods : ∀ entry ∈ a.timers, entry.2.Proportioned)
    (otherPeriods : ∀ entry ∈ b.timers, entry.2.Proportioned) (saved : a.save = b.save)
    (next : a.nextId = b.nextId) : a.forget = b.forget := by
  obtain ⟨current, owed, speed, usage, timers⟩ := ClockSnapshot.mk.inj saved
  simp only [forget, forgetOfSave periods otherPeriods timers, current, owed, speed, usage, next]

/-- A clock that loads what another one with the same timers saved goes on as that one does, as
long as no step of wall time is among the operations. -/
theorem savedResumes (reached : a.Reachable) (ids : b.ids = a.ids) (next : b.nextId = a.nextId) :
    (b.load a.save).1 = 0 ∧
      (∀ {World : Type} (callback : Callback World) (world : World) (ops : List Operation),
        (∀ op ∈ ops, op.ofWallTime = false) →
          ((b.load a.save).2.run callback world ops).1 = (a.run callback world ops).1 ∧
          ((b.load a.save).2.run callback world ops).2.map (fun (c, world) => (c.save, world)) =
            (a.run callback world ops).2.map fun (c, world) => (c.save, world)) ∧
      ∀ s : ClockSnapshot, s.timers.map (fun t => TimerId.mk t.id) = b.ids →
        (b.load s).1 = 0 ∧ (b.load s).2.save = s := by
  have sound := reached.sound
  have distinct : b.ids.Nodup := ids ▸ sound.distinct
  have listed : a.save.timers.map (fun t => TimerId.mk t.id) = b.ids := by
    rw [ids, save, List.map_map]
    rfl
  obtain ⟨none, saved, periods⟩ := loadSaves distinct listed
  have alike : (b.load a.save).2.forget = a.forget := alikeOfSave periods sound.periods saved next
  refine ⟨none, fun callback world ops simulated => ?_, fun s listed => ?_⟩
  · obtain ⟨outcomes, last⟩ := runAlike callback alike world simulated
    refine ⟨outcomes, ?_⟩
    have same := congrArg (Except.map fun (c, world) => (c.save, world)) last
    rw [mapThen, mapThen] at same
    simpa only [Function.comp_def, saveForget] using same
  · obtain ⟨none, saved, _⟩ := loadSaves distinct listed
    exact ⟨none, saved⟩

end

theorem twoMatchesResumed :
    let a : Clock :=
      { Clock.fresh with timers := [(⟨0⟩, ⟨true, 5, 2, 10, ⟨0, 30⟩, 2⟩)], nextId := 1, current := ⟨0, 25⟩ }
    let b : Clock :=
      { Clock.fresh with
        timers := [(⟨0⟩, ⟨false, 7, 7, 3, ⟨9, 0⟩, 40⟩)], nextId := 1, current := ⟨8, 1⟩, state := .running }
    let ops : List Operation := [.advance 40, .save, .create, .setCompare ⟨4⟩ 1]
    a.Reachable ∧ b.ids = a.ids ∧ b.nextId = a.nextId ∧ (∀ op ∈ ops, op.ofWallTime = false) ∧
      (b.load a.save).1 = 0 ∧
      ((b.load a.save).2.run .record [] ops).1 = (a.run .record [] ops).1 ∧
      ((b.load a.save).2.run .record [] ops).2.map (fun (c, log) => (c.save, log)) =
        (a.run .record [] ops).2.map fun (c, log) => (c.save, log) := by
  intro a b ops
  let before : List Operation := [.create, .setPrescaler ⟨0⟩ 2, .setCompare ⟨0⟩ 5, .enable ⟨0⟩ true, .advance 25]
  have ran : (Clock.fresh.run .record [] before).2 = .ok (a, [⟨⟨0⟩, ⟨0, 20⟩⟩, ⟨⟨0⟩, ⟨0, 10⟩⟩]) := by cbv
  have reached : a.Reachable := Reachable.fresh.run ran
  have simulated : ∀ op ∈ ops, op.ofWallTime = false := by decide
  obtain ⟨none, same, _⟩ := savedResumes (b := b) reached rfl rfl
  exact ⟨reached, rfl, rfl, simulated, none, same .record [] ops simulated⟩

end Clock

end RobotLink
