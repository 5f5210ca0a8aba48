import RobotLink.Proofs.Phase

/-! Ticks that are owed. What a deferred step leaves over is carried to the next one as a word: as
long as the ticks owed fit into it, none of those given to a clock is dropped, and beyond it only
the greatest word is owed. -/
namespace RobotLink.Clock
variable {World : Type} {callback : Callback World} {c d : Clock} {world later : World} {delta : UInt64}
  {outcome : Advanced}

theorem advanceTotal (h : c.advance callback world delta = .ok (outcome, d, later)) :
    d.total = min (c.total + delta.toNat) (d.current.get + (UInt64.size - 1)) := by
  obtain ⟨target, last, swept⟩ := advanceSwept h
  have start : c.current ≤ target := by
    apply Ticks.leOfGet swept.exact
    rw [swept.sum, total]
    omega
  have notBeyond : last.current ≤ target := by
    refine Sweep.runKeeps swept.run start ?_ (P := fun m => m.current ≤ target)
    rintro m n i id t u before serves
    rw [serves.current]
    split
    · exact serves.due
    · exact before
  rw [← swept.sum]
  cases capped : outcome.deferred with
  | true =>
    obtain ⟨current, gap, distance, owed⟩ := swept.deferred capped
    have sum := Ticks.saturatingSubOk (Ticks.notLtOfLe notBeyond) distance
    have least : d.owed.toNat = min gap.get (UInt64.size - 1) := by
      rw [owed]
      exact clampWordLeast _
    rw [total, current, least]
    omega
  | false =>
    obtain ⟨current, owed⟩ := swept.finished capped
    rw [total, current, owed, UInt64.toNat_zero]
    omega

def given : List Operation → List Outcome → Nat
  | [], _ | _ :: _, [] => 0
  | op :: ops, outcome :: outcomes => op.given outcome + given ops outcomes

theorem Change.total {ticks : Nat} (change : Change callback c world ticks d later) :
    d.total = min (c.total + ticks) (d.current.get + (UInt64.size - 1)) := by
  cases change with
  | still current owed entries =>
    have word := c.owed.toNat_lt
    simp only [Clock.total, current, owed, UInt64.size]
    omega
  | advanced advance current owed timers currentAfter owedAfter timersAfter =>
    have sum := advanceTotal advance
    simp only [Clock.total, current, owed, currentAfter, owedAfter] at sum ⊢
    exact sum

theorem Change.carries {ticks : Nat} (change : Change callback c world ticks d later)
    (phase : InPhase c.current c.timers) (fits : c.owed.toNat + ticks < UInt64.size) : d.total = c.total + ticks := by
  have sum := change.total
  obtain ⟨_, notBack⟩ := phase.changed change
  unfold Clock.total at sum ⊢
  omega

theorem runGives {ops : List Operation} (onward : ∀ op ∈ ops, op.onward)
    (h : (c.run callback world ops).2 = .ok (d, later)) :
    d.total ≤ c.total + given ops (c.run callback world ops).1 := by
  induction ops generalizing c world with
  | nil => cases h; exact Nat.le_add_right _ _
  | cons op rest ih =>
    obtain ⟨first, others⟩ := List.forall_mem_cons.1 onward
    obtain ⟨outcome, m, between, performed, ran, outcomes⟩ := runOk h
    have sum := (performChanges performed first).total
    have after := ih others ran
    rw [outcomes, given]
    omega

def Fits (callback : Callback World) (c : Clock) (world : World) : List Operation → Prop
  | [] => True
  | op :: rest =>
    match c.perform callback world op with
    | .error _ => True
    | .ok (outcome, d, later) => c.owed.toNat + op.given outcome < UInt64.size ∧ Fits callback d later rest

theorem runCarries {ops : List Operation} (phase : InPhase c.current c.timers) (onward : ∀ op ∈ ops, op.onward)
    (h : (c.run callback world ops).2 = .ok (d, later)) (fits : Fits callback c world ops) :
    d.total = c.total + given ops (c.run callback world ops).1 := by
  induction ops generalizing c world with
  | nil =>
    cases h
    rw [run, given, Nat.add_zero]
  | cons op rest ih =>
    obtain ⟨first, others⟩ := List.forall_mem_cons.1 onward
    obtain ⟨outcome, m, between, performed, ran, outcomes⟩ := runOk h
    rw [Fits, performed] at fits
    have change := performChanges performed first
    have sum := change.carries phase fits.1
    have after := ih (phase.changed change).1 others ran fits.2
    rw [outcomes, given, after, sum, Nat.add_assoc]

section
variable {longest limit : Nat} {target : Ticks} {cap : Option Nat} {timers : List (TimerId × Timer)}

structure Busy (longest : Nat) (timers : List (TimerId × Timer)) : Prop where
  taking : ∃ entry ∈ timers, entry.2.schedulable
  bounded : ∀ entry ∈ timers, entry.2.schedulable → entry.2.period.toNat ≤ longest

theorem Busy.served {s n : Sweep World} {i : Nat} {id : TimerId} {t u : Timer} (busy : Busy longest s.timers)
    (serves : s.Serves callback target cap n i id t u) : Busy longest n.timers := by
  obtain ⟨next, rfl, _⟩ := Timer.rearmMeets serves.rearmed
  refine ⟨⟨_, serves.left, serves.takesPart⟩, fun entry member on => ?_⟩
  rcases serves.entries entry member with old | rfl
  · exact busy.bounded entry old on
  · exact busy.bounded (id, t) serves.member on

theorem Busy.swept {last : Sweep World} (busy : Busy longest c.timers) (phase : InPhase c.current c.timers)
    (swept : Swept callback c world delta outcome d later target last) :
    Busy longest last.timers ∧ last.current.get ≤ c.current.get + last.fired * longest ∧
      ∀ limit, c.cpuUsage.cap? = some limit → last.fired ≤ limit := by
  obtain ⟨_, left⟩ := Sweep.runKeeps swept.run (P := fun m => InPhase m.current m.timers ∧ Busy longest m.timers ∧
      m.current.get ≤ c.current.get + m.fired * longest ∧ ∀ limit, c.cpuUsage.cap? = some limit → m.fired ≤ limit)
    ⟨phase, busy, by simp, fun limit _ => Nat.zero_le limit⟩ (by
      rintro m n i id t u ⟨before, taking, reached, within⟩ serves
      have period : t.period.toNat ≤ longest := taking.bounded (id, t) serves.member serves.takesPart
      have ahead := (before.timers (id, t) serves.member).within serves.takesPart
      refine ⟨before.served serves, taking.served serves, ?_, fun limit same => ?_⟩
      · rw [(before.instant serves).1, serves.fired, Nat.succ_mul]
        dsimp only at ahead
        omega
      · rw [serves.fired]
        exact serves.belowCap limit same)
  exact left

theorem Busy.deferred (busy : Busy longest c.timers) (phase : InPhase c.current c.timers)
    (capped : c.cpuUsage.cap? = some limit) (h : c.advance callback world delta = .ok (outcome, d, later))
    (much : (limit + 1) * longest ≤ c.owed.toNat + delta.toNat) :
    outcome.deferred = true ∧ d.current.get ≤ c.current.get + limit * longest ∧ Busy longest d.timers ∧
      d.cpuUsage.cap? = some limit := by
  obtain ⟨target, last, swept⟩ := advanceSwept h
  obtain ⟨left, _, _⟩ := phase.swept swept
  obtain ⟨still, reached, within⟩ := busy.swept phase swept
  have most := Nat.mul_le_mul_right longest (within limit capped)
  have deferred : outcome.deferred = true := by
    -- Had the sweep come to its end, the next match of a busy timer would lie after all the ticks.
    cases ended : outcome.deferred with
    | true => rfl
    | false =>
      have finished := Sweep.runEnds swept.run
      rw [ended] at finished
      obtain ⟨entry, member, on⟩ := still.taking
      have late := finishedNothingDue finished swept.exact left.normalized entry member on
      have period := still.bounded entry member on
      have soon := (left.timers entry member).within on
      rw [swept.sum, total] at late
      rw [Nat.succ_mul] at much
      omega
  rw [(swept.deferred deferred).1, swept.timers]
  exact ⟨deferred, by omega, still, by rw [swept.settings]; exact capped⟩

theorem Busy.dropped (busy : Busy longest c.timers) (phase : InPhase c.current c.timers)
    (capped : c.cpuUsage.cap? = some limit) (h : c.advance callback world delta = .ok (outcome, d, later))
    (much : limit * longest + UInt64.size ≤ c.owed.toNat + delta.toNat) (short : longest < UInt64.size) :
    d.total < c.total + delta.toNat := by
  obtain ⟨_, reached, _⟩ := busy.deferred phase capped h (by rw [Nat.succ_mul]; omega)
  have sum := advanceTotal h
  unfold total at sum ⊢
  omega

end

/-- Without a reset or a load a clock is given at most the ticks of its operations, and all of them
as long as those owed fit into a word. From there an advance in range returns. Deferred or not it
adds all its ticks if they and the owed ones fit into a word, and in any case those up to a word
past the instant it reaches. -/
theorem ticksCarried {ops : List Operation} (onward : ∀ op ∈ ops, op.onward)
    (ran : (fresh.run callback world ops).2 = .ok (c, later)) :
    c.total ≤ given ops (fresh.run callback world ops).1 ∧
    (Fits callback fresh world ops → c.total = given ops (fresh.run callback world ops).1) ∧
    ∀ {World : Type} (callback : Callback World) (world : World) (delta : UInt64),
      (callback.Returns → c.total + delta.toNat + longestPeriod c.timers < Ticks.range →
        ∃ outcome d later, c.advance callback world delta = .ok (outcome, d, later)) ∧
      ∀ outcome d later, c.advance callback world delta = .ok (outcome, d, later) →
        d.total = min (c.total + delta.toNat) (d.current.get + (UInt64.size - 1)) ∧
        (outcome.deferred = false → d.owed = 0 ∧ d.total = c.total + delta.toNat) ∧
        (c.owed.toNat + delta.toNat < UInt64.size → d.total = c.total + delta.toNat) := by
  have none : fresh.total = 0 := rfl
  have most := runGives onward ran
  have all := runCarries freshInPhase onward ran
  rw [none, Nat.zero_add] at most all
  have phase := freshInPhase.run ran fun op member => Operation.unloaded (onward op member)
  refine ⟨most, all, fun callback world delta => ⟨fun returns room => ?_, fun outcome d later h => ⟨?_, ?_, ?_⟩⟩⟩
  · obtain ⟨outcome, d, later, done, _⟩ :=
      advanceReturns returns phase.current (readyOf phase.normalized room) (Nat.le_refl _) (by omega) world
    exact ⟨outcome, d, later, done⟩
  · exact advanceTotal h
  · intro finished
    obtain ⟨target, last, swept⟩ := advanceSwept h
    obtain ⟨current, owed⟩ := swept.finished finished
    refine ⟨owed, ?_⟩
    rw [total, current, owed, swept.sum, UInt64.toNat_zero, Nat.add_zero]
  · intro fits
    exact (Change.advance h).carries phase fits

theorem deferredTicksCarried :
    let ops : List Operation := [.create, .setCompare ⟨0⟩ 2, .enable ⟨0⟩ true, .setCpuUsage .low, .advance 5,
      .setTargetSpeed 1000000000, .start, .step 10, .step 13]
    (∀ op ∈ ops, op.onward) ∧ ∃ c log, (fresh.run .record [] ops).2 = .ok (c, log) ∧ c.total = 8 ∧
      c.total = given ops (fresh.run .record [] ops).1 ∧ ∃ outcome d later,
        c.advance .record log 3000 = .ok (outcome, d, later) ∧ outcome.deferred = true ∧ d.total = 3008 := by
  intro ops
  have onward : ∀ op ∈ ops, op.onward := by decide
  let c : Clock := { Clock.fresh with
    targetSpeed := 1000000000, cpuUsage := .low, timers := [(⟨0⟩, ⟨true, 2, 1, 2, ⟨0, 10⟩, 4⟩)], nextId := 1,
    current := ⟨0, 8⟩, state := .running, lastStep := some 13, stats := ⟨0, 1, 2, 3, none⟩ }
  let log : List Firing := [⟨⟨0⟩, ⟨0, 8⟩⟩, ⟨⟨0⟩, ⟨0, 6⟩⟩, ⟨⟨0⟩, ⟨0, 4⟩⟩, ⟨⟨0⟩, ⟨0, 2⟩⟩]
  have ran : (fresh.run .record [] ops).2 = .ok (c, log) := by cbv
  obtain ⟨_, all, advances⟩ := ticksCarried onward ran
  obtain ⟨returns, carries⟩ := advances .record log 3000
  obtain ⟨outcome, d, later, done⟩ := returns Callback.recordReturns (by decide)
  have phase : InPhase c.current c.timers := freshInPhase.run ran (by decide)
  have busy : Busy 2 c.timers := ⟨⟨_, List.mem_cons_self, by decide⟩, by decide⟩
  obtain ⟨deferred, _⟩ := busy.deferred phase rfl done (by decide)
  have carried := (carries outcome d later done).2.2 (by decide)
  exact ⟨onward, c, _, ran, by decide, all (by cbv), outcome, d, later, done, deferred, carried.trans (by decide)⟩

theorem owedTicksDropped :
    let delta : UInt64 := 0xFFFFFFFFFFFFFFFF
    let ops : List Operation := [.create, .setCompare ⟨0⟩ 1, .enable ⟨0⟩ true, .setCpuUsage .low, .advance delta]
    (∀ op ∈ ops, op.onward) ∧ ∃ c log, (fresh.run .record [] ops).2 = .ok (c, log) ∧
      c.total + delta.toNat < Ticks.range ∧ ∃ outcome d later,
        c.advance .record log delta = .ok (outcome, d, later) ∧ d.total ≠ c.total + delta.toNat := by
  intro delta ops
  let start : Clock := { Clock.fresh with
    cpuUsage := .low, timers := [(⟨0⟩, ⟨true, 1, 1, 1, ⟨0, 1⟩, 0⟩)], nextId := 1 }
  have set : (fresh.run .record [] (ops.take 4)).2 = .ok (start, []) := by cbv
  have phase : InPhase start.current start.timers := freshInPhase.run set (by decide)
  have busy : Busy 1 start.timers := ⟨⟨_, List.mem_cons_self, by decide⟩, by decide⟩
  have ready : Ready (2 * UInt64.size) start.timers := ⟨phase.normalized, by decide⟩
  have inside : start.total + delta.toNat ≤ 2 * UInt64.size := by decide
  obtain ⟨_, c, log, first, readyNext⟩ :=
    advanceReturns Callback.recordReturns phase.current ready inside (by decide) []
  obtain ⟨_, reached, busyNext, usage⟩ := busy.deferred phase rfl first (by decide)
  obtain ⟨phaseNext, _⟩ := phase.advanced first
  have fits : start.owed.toNat + delta.toNat < UInt64.size := by decide
  have all : c.total = start.total + delta.toNat := (Change.advance first).carries phase fits
  have sum : c.total = UInt64.size - 1 := all.trans (by decide)
  have whole : delta.toNat = UInt64.size - 1 := by decide
  have early : start.current.get = 0 := by decide
  have much : 1000 * 1 + UInt64.size ≤ c.owed.toNat + delta.toNat := by
    unfold total at sum
    simp only [UInt64.size] at *
    omega
  have insideNext : c.total + delta.toNat ≤ 2 * UInt64.size := by
    rw [sum, whole]
    decide
  obtain ⟨outcome, d, later, second, _⟩ :=
    advanceReturns Callback.recordReturns phaseNext.current readyNext insideNext (by decide) log
  have dropped := busyNext.dropped phaseNext usage second much (by decide)
  have room : c.total + delta.toNat < Ticks.range := Nat.lt_of_le_of_lt insideNext (by decide)
  refine ⟨by decide, c, log, ?_, room, outcome, d, later, second, Nat.ne_of_lt dropped⟩
  rw [show ops = ops.take 4 ++ [.advance delta] from rfl, runAppend set, run, perform, first]
  rfl

end RobotLink.Clock
