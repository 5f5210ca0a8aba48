import RobotLink.Proofs.Phase

/-! The order of matches over a whole run. As long as a clock is neither reset nor loaded, its time
never goes back and no timer matches twice at one instant: one that has just matched has a whole
period to go, whatever is set at that instant or between a capped step and the next. -/
namespace RobotLink

def Firing.Follows (later earlier : Firing) : Prop :=
  earlier.instant.get ≤ later.instant.get ∧
    (later.timer = earlier.timer → earlier.instant.get < later.instant.get)

namespace Clock
variable {World : Type} {c d : Clock} {log later : List Firing} {now target : Ticks} {cap : Option Nat}

structure Chronicle (log : List Firing) (now : Ticks) (timers : List (TimerId × Timer)) : Prop where
  past : ∀ f ∈ log, f.instant.get ≤ now.get
  spent : ∀ f ∈ log, f.instant.get = now.get → ∀ entry ∈ timers, entry.1 = f.timer → entry.2.Whole now
  ordered : log.Pairwise Firing.Follows

theorem Chronicle.onTo {timers : List (TimerId × Timer)} (chronicle : Chronicle log now timers)
    (exact : now.Normalized) (targetExact : target.Normalized) (notBack : now.get ≤ target.get) :
    Chronicle log target timers := by
  refine ⟨fun f member => Nat.le_trans (chronicle.past f member) notBack, fun f member here => ?_,
    chronicle.ordered⟩
  have past := chronicle.past f member
  have same : now = target := Ticks.getInjective exact targetExact (by omega)
  exact same ▸ chronicle.spent f member (same ▸ here)

theorem servedIds {callback : Callback World} {s n : Sweep World} {i : Nat} {id : TimerId} {t u : Timer}
    (serves : s.Serves callback target cap n i id t u) : n.timers.map Prod.fst = s.timers.map Prod.fst := by
  rw [serves.timers]
  refine (setKeeps (earliestAt serves.found).1 fun own => ?_).1
  obtain ⟨_, rfl, _⟩ := Timer.rearmMeets serves.rearmed
  exact own

theorem Chronicle.served {s n : Sweep (List Firing)} {i : Nat} {id : TimerId} {t u : Timer}
    (chronicle : Chronicle s.world s.current s.timers) (phase : InPhase s.current s.timers)
    (distinct : (s.timers.map Prod.fst).Nodup) (serves : s.Serves .record target cap n i id t u) :
    Chronicle n.world n.current n.timers := by
  obtain ⟨same, notBack⟩ := phase.instant serves
  have called := serves.called
  simp only [Callback.record, Except.ok.injEq] at called
  have onward := chronicle.onTo phase.current (phase.served serves).current notBack
  have rearmed : u.Whole n.current := same ▸ rearmedWhole serves.rearmed
  rw [← called]
  refine ⟨?_, ?_, ?_⟩
  · intro f member
    rcases List.mem_cons.1 member with rfl | old
    · exact Nat.le_of_eq (congrArg Ticks.get same.symm)
    · exact onward.past f old
  · intro f member here entry present own
    rcases serves.entries entry present with unchanged | rfl
    · rcases List.mem_cons.1 member with rfl | old
      · -- The timer that matched is the only one of its id, and it was scheduled anew.
        have kept : (n.timers.map Prod.fst).Nodup := (servedIds serves).symm ▸ distinct
        have only := List.inj_on_of_nodup_map kept present serves.left own
        exact only ▸ rearmed
      · exact onward.spent f old here entry unchanged own
    · exact rearmed
  · refine List.pairwise_cons.2 ⟨fun f old => ?_, chronicle.ordered⟩
    have past := onward.past f old
    rw [same] at past
    refine ⟨past, fun own => Nat.lt_of_le_of_ne past fun twice => ?_⟩
    -- Had it matched at this instant before, a whole period would still lie ahead of it.
    have here : f.instant.get = s.current.get := by
      have before := chronicle.past f old
      rw [same] at notBack
      dsimp only at twice
      omega
    have whole := chronicle.spent f old here (id, t) serves.member own serves.takesPart
    have positive := ((Timer.schedulableIff t).1 serves.takesPart).2
    dsimp only at whole twice
    omega

structure Onward (start : Ticks) (log : List Firing) (current : Ticks) (later : List Firing) : Prop where
  notBack : start.get ≤ current.get
  more : ∃ added, later = added ++ log ∧ ∀ f ∈ added, start.get ≤ f.instant.get

theorem Onward.none (start : Ticks) (log : List Firing) : Onward start log start log :=
  ⟨Nat.le_refl _, [], rfl, nofun⟩

theorem Onward.trans {start middle current : Ticks} {between : List Firing} (first : Onward start log middle between)
    (next : Onward middle between current later) : Onward start log current later := by
  obtain ⟨added, rfl, early⟩ := first.more
  obtain ⟨more, rfl, late⟩ := next.more
  refine ⟨Nat.le_trans first.notBack next.notBack, more ++ added, (List.append_assoc _ _ _).symm, fun f member => ?_⟩
  rcases List.mem_append.1 member with new | old
  · exact Nat.le_trans first.notBack (late f new)
  · exact early f old

theorem Onward.upTo {start : Ticks} (onward : Onward start log now later) (notBack : now.get ≤ target.get) :
    Onward start log target later :=
  ⟨Nat.le_trans onward.notBack notBack, onward.more⟩

theorem servedOnward {s n : Sweep (List Firing)} {i : Nat} {id : TimerId} {t u : Timer}
    (phase : InPhase s.current s.timers) (serves : s.Serves .record target cap n i id t u) :
    Onward s.current s.world n.current n.world := by
  obtain ⟨same, notBack⟩ := phase.instant serves
  have called := serves.called
  simp only [Callback.record, Except.ok.injEq] at called
  refine ⟨notBack, [⟨id, t.nextMatch⟩], called.symm, fun f member => ?_⟩
  rw [List.mem_singleton.1 member]
  exact same ▸ notBack

theorem Chronicle.advanced {delta : UInt64} {outcome : Advanced} (chronicle : Chronicle log c.current c.timers)
    (phase : InPhase c.current c.timers) (distinct : (c.timers.map Prod.fst).Nodup)
    (h : c.advance .record log delta = .ok (outcome, d, later)) :
    Chronicle later d.current d.timers ∧ Onward c.current log d.current later := by
  obtain ⟨target, last, swept⟩ := advanceSwept h
  obtain ⟨_, _, within⟩ := phase.swept swept
  obtain ⟨left, _, after, onward⟩ := Sweep.runKeeps swept.run
    (P := fun m => InPhase m.current m.timers ∧ (m.timers.map Prod.fst).Nodup ∧
      Chronicle m.world m.current m.timers ∧ Onward c.current log m.current m.world)
    ⟨phase, distinct, chronicle, .none _ _⟩ (by
      rintro m n i id t u ⟨before, kept, past, onward⟩ serves
      exact ⟨before.served serves, (servedIds serves).symm ▸ kept, past.served before kept serves,
        onward.trans (servedOnward before serves)⟩)
  rw [swept.called, swept.timers]
  cases capped : outcome.deferred with
  | true =>
    rw [(swept.deferred capped).1]
    exact ⟨after, onward⟩
  | false =>
    rw [(swept.finished capped).1]
    exact ⟨after.onTo left.current swept.exact within, onward.upTo within⟩

theorem Chronicle.changed {ticks : Nat} (chronicle : Chronicle log c.current c.timers)
    (phase : InPhase c.current c.timers) (distinct : (c.timers.map Prod.fst).Nodup)
    (change : Change .record c log ticks d later) :
    Chronicle later d.current d.timers ∧ Onward c.current log d.current later := by
  cases change with
  | still current owed entries =>
    rw [current]
    refine ⟨⟨chronicle.past, fun f member here entry present own => ?_, chronicle.ordered⟩, .none _ _⟩
    obtain new | ⟨t, old, adjusted⟩ := entries entry present
    · exact fun on => by simp [new, Timer.schedulable, Timer.fresh] at on
    · exact (chronicle.spent f member here _ old own).adjusted (phase.timers _ old) phase.current adjusted
  | advanced advance current owed timers currentAfter owedAfter timersAfter =>
    rw [← current, ← timers] at chronicle phase
    rw [currentAfter, timersAfter, ← current]
    exact chronicle.advanced phase (timers ▸ distinct) advance

structure OnTime (c : Clock) (log : List Firing) : Prop where
  sound : c.Sound
  phase : InPhase c.current c.timers
  chronicle : Chronicle log c.current c.timers

theorem freshOnTime : fresh.OnTime [] := ⟨Reachable.fresh.sound, freshInPhase, nofun, nofun, .nil⟩

theorem OnTime.performed {op : Operation} {outcome : Outcome} (onTime : c.OnTime log)
    (h : c.perform .record log op = .ok (outcome, d, later)) (onward : op.onward) :
    d.OnTime later ∧ Onward c.current log d.current later := by
  have change := performChanges h onward
  obtain ⟨phase, _⟩ := onTime.phase.changed change
  obtain ⟨chronicle, since⟩ := onTime.chronicle.changed onTime.phase onTime.sound.distinct change
  exact ⟨⟨onTime.sound.performed h, phase, chronicle⟩, since⟩

theorem OnTime.run {ops : List Operation} (onTime : c.OnTime log)
    (h : (c.run .record log ops).2 = .ok (d, later)) (onward : ∀ op ∈ ops, op.onward) :
    d.OnTime later ∧ Onward c.current log d.current later := by
  induction ops generalizing c log with
  | nil => cases h; exact ⟨onTime, .none _ _⟩
  | cons op rest ih =>
    obtain ⟨first, others⟩ := List.forall_mem_cons.1 onward
    obtain ⟨_, _, _, performed, rest, _⟩ := runOk h
    obtain ⟨next, since⟩ := onTime.performed performed first
    obtain ⟨last, more⟩ := ih next rest others
    exact ⟨last, since.trans more⟩

theorem InPhase.reached {World : Type} {callback : Callback World} {start s : Sweep World}
    (phase : InPhase start.current start.timers)
    (reached : Relation.ReflTransGen (fun s n => s.next callback target cap = .ok (.fired n)) start s) :
    InPhase s.current s.timers := by
  induction reached with
  | refl => exact phase
  | tail _ next ih =>
    obtain ⟨_, _, _, _, serves⟩ := Sweep.nextServes next
    exact ih.served serves

/-- On a run without a reset or a load the time stands at the instant of each match when it is
called and never goes back, no match comes before an earlier one, and those of one timer come at
ever later instants. Wherever the run stands, an advance in range returns. -/
theorem matchesInOrder {ops : List Operation} (onward : ∀ op ∈ ops, op.onward)
    (ran : (fresh.run .record [] ops).2 = .ok (d, log)) :
    (log.Pairwise fun later earlier => earlier.instant.get ≤ later.instant.get ∧
      (later.timer = earlier.timer → earlier.instant.get < later.instant.get)) ∧
    ∀ before after, ops = before ++ after → ∃ c early added,
      (fresh.run .record [] before).2 = .ok (c, early) ∧ (c.run .record early after).2 = .ok (d, log) ∧
      c.current.get ≤ d.current.get ∧ log = added ++ early ∧
      (∀ f ∈ added, c.current.get ≤ f.instant.get ∧ f.instant.get ≤ d.current.get) ∧
      (∀ {World : Type} (callback : Callback World) (world : World) (target : Ticks) (cap : Option Nat)
        (s n : Sweep World),
        Relation.ReflTransGen (fun s n => s.next callback target cap = .ok (.fired n))
          ⟨c.current, c.timers, 0, world⟩ s → s.next callback target cap = .ok (.fired n) →
        ∃ i id t, earliest? s.timers = some (i, id, t) ∧ callback id t.nextMatch s.world = .ok n.world ∧
          n.current = t.nextMatch ∧ s.current.get ≤ n.current.get) ∧
      (∀ delta : UInt64, c.total + delta.toNat + longestPeriod c.timers < Ticks.range →
        ∃ outcome e later, c.advance .record early delta = .ok (outcome, e, later)) := by
  obtain ⟨last, _⟩ := freshOnTime.run ran onward
  refine ⟨last.chronicle.ordered, ?_⟩
  rintro before after rfl
  obtain ⟨c, early, first, second⟩ := runSplit ran
  obtain ⟨onTime, _⟩ := freshOnTime.run first fun op member => onward op (List.mem_append_left _ member)
  obtain ⟨_, since⟩ := onTime.run second fun op member => onward op (List.mem_append_right _ member)
  obtain ⟨added, joined, late⟩ := since.more
  refine ⟨c, early, added, first, second, since.notBack, joined, ?_, ?_, ?_⟩
  · intro f member
    exact ⟨late f member, last.chronicle.past f (joined ▸ List.mem_append_left _ member)⟩
  · intro World callback world target cap s n reached next
    obtain ⟨i, id, t, u, serves⟩ := Sweep.nextServes next
    obtain ⟨same, notBack⟩ := (onTime.phase.reached reached).instant serves
    exact ⟨i, id, t, serves.found, serves.called, same, notBack⟩
  · intro delta room
    have ready := readyOf onTime.phase.normalized room
    obtain ⟨outcome, e, later, done, _⟩ :=
      advanceReturns Callback.recordReturns onTime.phase.current ready (Nat.le_refl _) (by omega) early
    exact ⟨outcome, e, later, done⟩

theorem newPeriodAwaited :
    let ops : List Operation := [.create, .setCompare ⟨0⟩ 3, .enable ⟨0⟩ true, .advance 3, .setCompare ⟨0⟩ 2,
      .enable ⟨0⟩ false, .enable ⟨0⟩ true, .advance 3, .setTargetSpeed 1000000000, .start, .step 5, .step 6]
    let log : List Firing := [⟨⟨0⟩, ⟨0, 7⟩⟩, ⟨⟨0⟩, ⟨0, 5⟩⟩, ⟨⟨0⟩, ⟨0, 3⟩⟩]
    (∀ op ∈ ops, op.onward) ∧ (∃ d, (fresh.run .record [] ops).2 = .ok (d, log)) ∧
      (log.Pairwise fun later earlier => earlier.instant.get ≤ later.instant.get ∧
        (later.timer = earlier.timer → earlier.instant.get < later.instant.get)) ∧
      ∃ c early, (fresh.run .record [] (ops.take 4)).2 = .ok (c, early) ∧ ∃ d added,
        (c.run .record early (ops.drop 4)).2 = .ok (d, log) ∧ c.current.get ≤ d.current.get ∧
        log = added ++ early ∧ ∀ f ∈ added, c.current.get ≤ f.instant.get := by
  intro ops log
  have onward : ∀ op ∈ ops, op.onward := by decide
  have ran : ∃ d, (fresh.run .record [] ops).2 = .ok (d, log) := ⟨_, by cbv⟩
  obtain ⟨d, reached⟩ := ran
  obtain ⟨ordered, parts⟩ := matchesInOrder onward reached
  obtain ⟨c, early, added, first, second, notBack, joined, since, _⟩ := parts (ops.take 4) (ops.drop 4) rfl
  exact ⟨onward, ⟨d, reached⟩, ordered, c, early, first, d, added, second, notBack, joined,
    fun f member => (since f member).1⟩

end Clock

end RobotLink
