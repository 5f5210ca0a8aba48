import RobotLink.Proofs.Chronology
import RobotLink.Proofs.Normalization

/-! One clock resumed from the state of another. The time of the other is taken over whole, but of
the timers only those that the snapshot lists: these keep their distance to the time they were
saved at, the others their own schedules, however far those are from the new time. -/
namespace RobotLink
namespace Clock
variable {World : Type} {callback : Callback World} {a b c d : Clock} {world later : World}

/-- A clock reached without a snapshot made up by hand: each one that is loaded was saved by a clock
so reached, and is admitted for the clock that loads it. -/
inductive Unforged (admits : Clock → Clock → Prop) : Clock → Prop where
  | fresh : Unforged admits fresh
  | perform {World : Type} {callback : Callback World} {c d : Clock} {world later : World} {op : Operation}
      {outcome : Outcome} (before : Unforged admits c) (unloaded : op.loads = false)
      (performed : c.perform callback world op = .ok (outcome, d, later)) : Unforged admits d
  | load {b a : Clock} (before : Unforged admits b) (source : Unforged admits a) (admitted : admits b a) :
      Unforged admits (b.load a.save).2

def Covered (b a : Clock) : Prop := ∀ entry ∈ b.timers, entry.2.schedulable → entry.1 ∈ a.ids
instance (b a : Clock) : Decidable (Covered b a) := by unfold Covered; infer_instance

section
variable {admits : Clock → Clock → Prop}

theorem Unforged.wider {wide : Clock → Clock → Prop} (h : c.Unforged admits)
    (weaker : ∀ b a, admits b a → wide b a) : c.Unforged wide := by
  induction h with
  | fresh => exact .fresh
  | perform _ unloaded performed before => exact .perform before unloaded performed
  | load _ _ admitted before source => exact .load before source (weaker _ _ admitted)

theorem Unforged.run {ops : List Operation} (h : c.Unforged admits) (unloaded : ∀ op ∈ ops, op.loads = false)
    (ran : (c.run callback world ops).2 = .ok (d, later)) : d.Unforged admits := by
  induction ops generalizing c world with
  | nil => cases ran; exact h
  | cons op rest ih =>
    obtain ⟨first, others⟩ := List.forall_mem_cons.1 unloaded
    obtain ⟨_, _, _, performed, onward, _⟩ := runOk ran
    exact ih (.perform h first performed) others onward

theorem Unforged.reachable (h : c.Unforged admits) : c.Reachable := by
  induction h with
  | fresh => exact .fresh
  | perform _ _ performed before => exact .perform before performed
  | @load b a _ _ _ before _ =>
    have loaded : b.perform .record [] (.load a.save) = .ok (.loaded (b.load a.save).1, (b.load a.save).2, []) := rfl
    exact .perform before loaded

theorem loadedEntries (source : a.Sound) (sound : b.Sound) :
    ∀ entry ∈ (b.load a.save).2.timers, entry ∈ b.timers ∧ entry.1 ∉ a.ids ∨
      ∃ t, (entry.1, t) ∈ a.timers ∧ entry.2 = { t with fires := entry.2.fires } := by
  intro entry member
  obtain ⟨old, unlisted⟩ | ⟨saved, listed, own, u, restored⟩ :=
    restoresEntries a.save.timers sound.distinct entry member
  · refine .inl ⟨old, fun present => ?_⟩
    obtain ⟨⟨id, t⟩, place, same⟩ := List.mem_map.1 present
    exact unlisted (saveTimer id t) (List.mem_map_of_mem place) same.symm
  · obtain ⟨⟨id, t⟩, place, rfl⟩ := List.mem_map.1 listed
    have period : t.period = Timer.periodOf t.compare t.prescaler := source.periods (id, t) place
    refine .inr ⟨t, own ▸ place, ?_⟩
    rw [restored]
    simp only [Timer.restore, saveTimer, ← period]

theorem Unforged.normalized (h : c.Unforged admits) : ∀ t ∈ instants c.current c.timers, t.Normalized := by
  induction h with
  | fresh => exact List.forall_mem_singleton.2 (by decide)
  | @perform _ _ _ _ _ _ op _ before unloaded performed normalized =>
    have none (s : ClockSnapshot) (same : op = .load s) : ∀ t ∈ s.instants, t.Normalized := by
      rw [same] at unloaded
      cases unloaded
    exact performedInstants (fun _ exact => exact) before.reachable.sound performed none normalized
  | @load b a before source _ normalized saved =>
    refine loadedInstants before.reachable.sound normalized fun t listed => saved t ?_
    rcases List.mem_cons.1 listed with rfl | listed
    · exact List.mem_cons_self
    · obtain ⟨_, stored, rfl⟩ := List.mem_map.1 listed
      obtain ⟨entry, place, rfl⟩ := List.mem_map.1 stored
      exact List.mem_cons_of_mem _ (List.mem_map_of_mem place)

end

theorem loadedInPhase (source : a.Sound) (sound : b.Sound) (phase : InPhase a.current a.timers) :
    ∀ entry ∈ (b.load a.save).2.timers, entry.1 ∈ a.ids → entry.2.InPhase (b.load a.save).2.current := by
  intro entry member listed
  rcases loadedEntries source sound entry member with ⟨_, unlisted⟩ | ⟨t, place, same⟩
  · exact absurd listed unlisted
  · have own : t.InPhase a.current := phase.timers _ place
    rw [same]
    exact ⟨own.normalized, own.ahead, own.within⟩

theorem Covered.inPhase (covered : Covered b a) (source : a.Sound) (sound : b.Sound)
    (phase : InPhase a.current a.timers) (normalized : ∀ t ∈ instants b.current b.timers, t.Normalized) :
    InPhase (b.load a.save).2.current (b.load a.save).2.timers := by
  refine ⟨phase.current, fun entry member => ?_⟩
  by_cases listed : entry.1 ∈ a.ids
  · exact loadedInPhase source sound phase entry member listed
  · rcases loadedEntries source sound entry member with ⟨old, _⟩ | ⟨t, place, _⟩
    · exact Timer.idleInPhase ((instantsAll.1 normalized).2 entry old) fun on => listed (covered entry old on)
    · exact absurd (List.mem_map_of_mem place) listed

theorem Unforged.inPhase (h : c.Unforged Covered) : InPhase c.current c.timers := by
  induction h with
  | fresh => exact freshInPhase
  | perform _ unloaded performed phase => exact phase.performed performed unloaded
  | load before source covered _ phase =>
    exact covered.inPhase source.reachable.sound before.reachable.sound phase before.normalized

end Clock

def Firing.OnCourse (start : List (TimerId × Timer)) (f : Firing) : Prop :=
  ∃ t k, (f.timer, t) ∈ start ∧ t.schedulable ∧ f.instant.get = t.nextMatch.get + k * t.period.toNat

namespace Clock
variable {a b c d : Clock}

structure Course (start : List (TimerId × Timer)) (log : List Firing) (timers : List (TimerId × Timer)) : Prop where
  distinct : (timers.map Prod.fst).Nodup
  ahead : ∀ entry ∈ timers, entry.2.schedulable → ∃ t k, (entry.1, t) ∈ start ∧ t.schedulable ∧
    entry.2.period = t.period ∧ entry.2.nextMatch.get = t.nextMatch.get + k * t.period.toNat
  calls : ∀ f ∈ log, f.OnCourse start
  spent : ∀ f ∈ log, ∀ entry ∈ timers, entry.1 = f.timer → f.instant.get < entry.2.nextMatch.get
  ordered : log.Pairwise fun later earlier => later.timer = earlier.timer → earlier.instant.get < later.instant.get

theorem courseNone {start : List (TimerId × Timer)} (distinct : (start.map Prod.fst).Nodup) :
    Course start [] start := by
  refine ⟨distinct, fun entry member on => ⟨entry.2, 0, member, on, rfl, ?_⟩, nofun, nofun, .nil⟩
  rw [Nat.zero_mul, Nat.add_zero]

theorem Course.served {start : List (TimerId × Timer)} {target : Ticks} {cap : Option Nat} {s n : Sweep (List Firing)}
    {i : Nat} {id : TimerId} {t u : Timer} (course : Course start s.world s.timers)
    (serves : s.Serves .record target cap n i id t u) : Course start n.world n.timers := by
  have called := serves.called
  simp only [Callback.record, Except.ok.injEq] at called
  have distinct : (n.timers.map Prod.fst).Nodup := (servedIds serves).symm ▸ course.distinct
  obtain ⟨next, rearmed, _, sum⟩ := Timer.rearmMeets serves.rearmed
  have after : u.nextMatch.get = t.nextMatch.get + t.period.toNat := by rw [rearmed]; exact sum
  have period : u.period = t.period := by rw [rearmed]
  have positive := ((Timer.schedulableIff t).1 serves.takesPart).2
  obtain ⟨v, k, place, on, same, here⟩ := course.ahead _ serves.member serves.takesPart
  dsimp only at place same here
  -- The entry that was served is the only one of its id.
  have own {entry : TimerId × Timer} (member : entry ∈ n.timers) (named : entry.1 = id) : entry = (id, u) :=
    List.inj_on_of_nodup_map distinct member serves.left named
  rw [← called]
  refine ⟨distinct, fun entry member takesPart => ?_, ?_, ?_, ?_⟩
  · rcases serves.entries entry member with old | rfl
    · exact course.ahead entry old takesPart
    · refine ⟨v, k + 1, place, on, period.trans same, ?_⟩
      dsimp only
      rw [after, here, same, Nat.succ_mul, Nat.add_assoc]
  · exact List.forall_mem_cons.2 ⟨⟨v, k, place, on, here⟩, course.calls⟩
  · intro f member entry present named
    rcases List.mem_cons.1 member with rfl | old
    · rw [own present named, after]
      exact Nat.lt_add_of_pos_right positive
    · rcases serves.entries entry present with unchanged | rfl
      · exact course.spent f old entry unchanged named
      · have before : f.instant.get < t.nextMatch.get := course.spent f old (id, t) serves.member named
        dsimp only
        omega
  · exact List.pairwise_cons.2 ⟨fun f old named => course.spent f old (id, t) serves.member named, course.ordered⟩

theorem Course.advanced {delta : UInt64} {outcome : Advanced} {log : List Firing} (distinct : c.ids.Nodup)
    (h : c.advance .record [] delta = .ok (outcome, d, log)) : Course c.timers log d.timers := by
  obtain ⟨target, last, swept⟩ := advanceSwept h
  rw [swept.called, swept.timers]
  exact Sweep.runKeeps swept.run (P := fun m => Course c.timers m.world m.timers) (courseNone distinct)
    fun course serves => course.served serves

/-- A clock takes over the time that another one was saved at. Its timers that the snapshot lists go on
as they were saved, the others as they were, and the next advance calls each on its own course only. So
if the saved clock never loaded a state that missed one of its timers, a listed one is due from the
restored time on, no later than a period after it, and called for no instant before it; and if each timer
that takes part is listed, none is. -/
theorem restoredInPhase (source : a.Unforged fun _ _ => True) (before : b.Unforged fun _ _ => True) :
    (b.load a.save).2.current = a.current ∧
      (∀ entry ∈ (b.load a.save).2.timers, entry.1 ∉ a.ids → entry ∈ b.timers) ∧
      (∀ entry ∈ (b.load a.save).2.timers, entry.1 ∈ a.ids →
        ∃ t, (entry.1, t) ∈ a.timers ∧ entry.2 = { t with fires := entry.2.fires }) ∧
      (∀ delta : UInt64, (b.load a.save).2.total + delta.toNat + longestPeriod (b.load a.save).2.timers < Ticks.range →
        ∃ outcome d log, (b.load a.save).2.advance .record [] delta = .ok (outcome, d, log)) ∧
      (∀ delta outcome d log, (b.load a.save).2.advance .record [] delta = .ok (outcome, d, log) →
        (∀ f ∈ log, f.OnCourse (b.load a.save).2.timers) ∧
        log.Pairwise fun later earlier => later.timer = earlier.timer → earlier.instant.get < later.instant.get) ∧
      (a.Unforged Covered →
        (∀ entry ∈ (b.load a.save).2.timers, entry.1 ∈ a.ids → entry.2.schedulable →
          a.current ≤ entry.2.nextMatch ∧ a.current.get ≤ entry.2.nextMatch.get ∧
          entry.2.nextMatch.get ≤ a.current.get + entry.2.period.toNat) ∧
        ∀ delta outcome d log, (b.load a.save).2.advance .record [] delta = .ok (outcome, d, log) →
          (∀ f ∈ log, f.timer ∈ a.ids → a.current.get ≤ f.instant.get) ∧
          (Covered b a → ∀ f ∈ log, a.current.get ≤ f.instant.get)) := by
  have saved := source.reachable.sound
  have sound := before.reachable.sound
  have after : (b.load a.save).2.Unforged fun _ _ => True := .load before source trivial
  have normalized := instantsAll.1 after.normalized
  have course {delta outcome d log} (h : (b.load a.save).2.advance .record [] delta = .ok (outcome, d, log)) :=
    Course.advanced after.reachable.sound.distinct h
  refine ⟨rfl, fun entry member unlisted => ?_, fun entry member listed => ?_, fun delta room => ?_,
    fun delta outcome d log h => ⟨(course h).calls, (course h).ordered⟩, fun covering => ?_⟩
  · rcases loadedEntries saved sound entry member with ⟨old, _⟩ | ⟨t, place, _⟩
    · exact old
    · exact absurd (List.mem_map_of_mem place) unlisted
  · rcases loadedEntries saved sound entry member with ⟨_, unlisted⟩ | resumed
    · exact absurd listed unlisted
    · exact resumed
  · have ready := readyOf normalized.2 room
    obtain ⟨outcome, d, log, done, _⟩ :=
      advanceReturns Callback.recordReturns normalized.1 ready (Nat.le_refl _) (by omega) []
    exact ⟨outcome, d, log, done⟩
  · have phase := covering.inPhase
    have listedPhase := loadedInPhase saved sound phase
    refine ⟨fun entry member listed on => ?_, fun delta outcome d log h => ?_⟩
    · have own := listedPhase entry member listed
      exact ⟨Ticks.leOfGet own.normalized (own.ahead on), own.ahead on, own.within on⟩
    · have early {f : Firing} (called : f ∈ log)
          (phase : ∀ t, (f.timer, t) ∈ (b.load a.save).2.timers → t.InPhase a.current) :
          a.current.get ≤ f.instant.get := by
        obtain ⟨t, k, place, on, instant⟩ := (course h).calls f called
        have ahead := (phase t place).ahead on
        omega
      refine ⟨fun f called listed => early called fun t place => listedPhase _ place listed,
        fun covered f called => early called fun t place => ?_⟩
      exact (covered.inPhase saved sound phase before.normalized).timers _ place

theorem secondTimerCatchesUp :
    let timer : Timer := ⟨true, 100, 1, 100, ⟨0, 300⟩, 0⟩
    let a : Clock := { fresh with timers := [(⟨0⟩, timer)], nextId := 1, current := ⟨0, 260⟩ }
    let b : Clock := { fresh with
      timers := [(⟨0⟩, .fresh), (⟨1⟩, ⟨true, 100, 1, 100, ⟨0, 100⟩, 0⟩)], nextId := 2 }
    let log : List Firing := [⟨⟨1⟩, ⟨0, 300⟩⟩, ⟨⟨0⟩, ⟨0, 300⟩⟩, ⟨⟨1⟩, ⟨0, 200⟩⟩, ⟨⟨1⟩, ⟨0, 100⟩⟩]
    a.Unforged Covered ∧ (b.Unforged fun _ _ => True) ∧
      (⟨0⟩, timer) ∈ (b.load a.save).2.timers ∧ a.current ≤ timer.nextMatch ∧
      timer.nextMatch.get ≤ a.current.get + timer.period.toNat ∧
      (∃ outcome d, (b.load a.save).2.advance .record [] 45 = .ok (outcome, d, log)) ∧
      ∀ f ∈ log, f.OnCourse (b.load a.save).2.timers ∧ (f.timer ∈ a.ids → a.current.get ≤ f.instant.get) := by
  intro timer a b log
  have fresh (admits : Clock → Clock → Prop) : Clock.fresh.Unforged admits := .fresh
  have one : (Clock.fresh.run .record [] [.create]).2 =
      .ok ({ Clock.fresh with timers := [(⟨0⟩, .fresh)], nextId := 1 }, []) := by cbv
  have saved : (Clock.fresh.run .record [] [.create, .setCompare ⟨0⟩ 100, .enable ⟨0⟩ true, .advance 250]).2 =
      .ok ({ a with current := ⟨0, 250⟩, timers := [(⟨0⟩, { timer with fires := 2 })] },
        [⟨⟨0⟩, ⟨0, 200⟩⟩, ⟨⟨0⟩, ⟨0, 100⟩⟩]) := by cbv
  have resumed : ({ a with current := ⟨0, 250⟩ } : Clock).Unforged Covered :=
    ((fresh Covered).run (by decide) one).load ((fresh Covered).run (by decide) saved) (by decide)
  have onward : (({ a with current := ⟨0, 250⟩ } : Clock).run .record [] [.advance 10]).2 = .ok (a, []) := by cbv
  have two : (Clock.fresh.run .record [] [.create, .create, .setCompare ⟨1⟩ 100, .enable ⟨1⟩ true]).2 =
      .ok (b, []) := by cbv
  have source : a.Unforged Covered := resumed.run (by decide) onward
  have before : b.Unforged fun _ _ => True := (fresh _).run (by decide) two
  obtain ⟨_, _, _, _, calls, covering⟩ := restoredInPhase (source.wider fun _ _ _ => trivial) before
  obtain ⟨listed, since⟩ := covering source
  obtain ⟨ahead, _, within⟩ := listed (⟨0⟩, timer) (by decide) (by decide) (by decide)
  have advanced : ∃ outcome d, (b.load a.save).2.advance .record [] 45 = .ok (outcome, d, log) := ⟨_, _, by cbv⟩
  refine ⟨source, before, by decide, ahead, within, advanced, fun f called => ?_⟩
  obtain ⟨outcome, d, done⟩ := advanced
  exact ⟨(calls 45 outcome d log done).1 f called, (since 45 outcome d log done).1 f called⟩

theorem unlistedLeftBehind :
    let a : Clock := { fresh with current := ⟨0, 250⟩ }
    let b : Clock := { fresh with timers := [(⟨0⟩, ⟨true, 100, 1, 100, ⟨0, 100⟩, 0⟩)], nextId := 1 }
    (fresh.run .record [] [.advance 250]).2 = .ok (a, []) ∧
      (fresh.run .record [] [.create, .setCompare ⟨0⟩ 100, .enable ⟨0⟩ true]).2 = .ok (b, []) ∧
      (b.load a.save).2 = { b with current := ⟨0, 250⟩ } ∧
      (∀ entry ∈ (b.load a.save).2.timers, entry.2.schedulable ∧ entry.2.nextMatch.get < a.current.get) ∧
      (∃ d, (b.load a.save).2.advance .record [] 0 = .ok (⟨2, false⟩, d, [⟨⟨0⟩, ⟨0, 200⟩⟩, ⟨⟨0⟩, ⟨0, 100⟩⟩])) ∧
      (b.load (b.load a.save).2.save).2 = (b.load a.save).2 := by
  intro a b
  exact ⟨by cbv, by cbv, by decide, by decide, ⟨_, by cbv⟩, by decide⟩

end Clock

end RobotLink
