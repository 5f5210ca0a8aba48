import RobotLink.Proofs.CarriedTicks

/-! Wall time turned into ticks. What a step leaves below one tick is kept for the next one, so
steps at any instants and speeds report the whole ticks of all their wall time, to the last. -/
namespace RobotLink

structure SpeedStats.HasRoom (s : SpeedStats) (micros fired given : UInt64) : Prop where
  delta : s.delta.toNat + micros.toNat < UInt64.size
  runs : s.runs.toNat + 1 < UInt64.size
  timeouts : s.timeouts.toNat + fired.toNat < UInt64.size
  ticks : s.ticks.toNat + given.toNat < UInt64.size

def SpeedStats.summed (s : SpeedStats) (micros fired given : UInt64) : SpeedStats :=
  ⟨s.delta + micros, s.runs + 1, s.timeouts + fired, s.ticks + given, s.last⟩

theorem SpeedStats.HasRoom.record {s : SpeedStats} {micros fired given : UInt64} (room : s.HasRoom micros fired given) :
    s.record micros fired given = .ok
      (if (s.summed micros fired given).delta < window then (none, s.summed micros fired given)
        else (some (s.summed micros fired given).sample,
          { fresh with last := some (s.summed micros fired given).sample })) := by
  unfold SpeedStats.record
  rw [addWordMeets room.delta, addWordMeets room.runs, addWordMeets room.timeouts, addWordMeets room.ticks]
  by_cases below : (s.summed micros fired given).delta < window
  · rw [if_pos below]
    exact if_pos below
  · rw [if_neg below]
    exact if_neg below

namespace Clock
variable {World : Type} {callback : Callback World} {c d : Clock} {world later : World} {last now : Nat}

theorem timeFits (fits : c.timeSince last now / nanosPerSecond < UInt64.size) : c.timeSince last now < wideSize := by
  simp only [nanosPerSecond, UInt64.size, wideSize] at *
  omega

theorem stepOpens (callback : Callback World) (world : World) (running : c.state = .running)
    (reference : c.lastStep = some last) (whole : c.timeSince last now < wideSize) :
    c.step callback world now = do
      let (outcome, after, later) ← (c.stepped last now).advance callback world (c.ticksSince last now)
      let (speed, stats) ←
        after.stats.record (clampWord ((now - last) / 1000)) outcome.fired.toUInt64 (c.ticksSince last now)
      return (⟨outcome.fired, c.ticksSince last now, outcome.deferred, speed⟩, { after with stats }, later) := by
  have small : c.targetSpeed.toNat * (now - last) < wideSize := Nat.lt_of_le_of_lt (Nat.le_add_right _ _) whole
  have product : mulWide c.targetSpeed.toNat (now - last) = .ok (c.targetSpeed.toNat * (now - last)) := if_pos small
  have sum : addWide (c.targetSpeed.toNat * (now - last)) c.tickFraction = .ok (c.timeSince last now) := if_pos whole
  unfold step
  rw [if_neg (by simpa using running), reference]
  simp only [product, sum, okBind]
  rfl

theorem stepReturns {outcome : Advanced} {after : Clock} {speed : Option SpeedSample} {stats : SpeedStats}
    (running : c.state = .running) (reference : c.lastStep = some last) (whole : c.timeSince last now < wideSize)
    (advanced : (c.stepped last now).advance callback world (c.ticksSince last now) = .ok (outcome, after, later))
    (recorded : after.stats.record (clampWord ((now - last) / 1000)) outcome.fired.toUInt64 (c.ticksSince last now) =
      .ok (speed, stats)) :
    c.step callback world now =
      .ok (⟨outcome.fired, c.ticksSince last now, outcome.deferred, speed⟩, { after with stats }, later) := by
  rw [stepOpens callback world running reference whole, advanced, okBind]
  simp only [recorded, okBind]
  rfl

theorem stepConverts {summary : StepSummary} (running : c.state = .running) (reference : c.lastStep = some last)
    (fits : c.timeSince last now / nanosPerSecond < UInt64.size)
    (owed : ∀ outcome d later, (c.stepped last now).advance callback world (c.ticksSince last now) =
      .ok (outcome, d, later) → c.total + (c.ticksSince last now).toNat < d.current.get + UInt64.size)
    (h : c.step callback world now = .ok (summary, d, later)) :
    summary.ticks.toNat = c.timeSince last now / nanosPerSecond ∧
      d.tickFraction = c.timeSince last now % nanosPerSecond ∧ d.state = .running ∧ d.lastStep = some now ∧
      d.total = c.total + summary.ticks.toNat := by
  obtain ⟨outcome, after, steps⟩ := stepAdvances running reference h
  obtain ⟨target, m, swept⟩ := advanceSwept steps.advance
  have sum := advanceTotal steps.advance
  have left := owed outcome after later steps.advance
  have whole : after.total = c.total + (c.ticksSince last now).toNat := by
    rw [sum]
    change min (c.total + _) _ = _
    omega
  rw [steps.summary, steps.clock]
  refine ⟨clampWordExact fits, ?_, ?_, ?_, whole⟩
  · rw [swept.settings]
    rfl
  · rw [swept.settings]
    exact running
  · rw [swept.settings]
    rfl

structure Pace where
  hertz : UInt64
  now : Nat
  deriving DecidableEq, Repr

def Pace.scaled (last : Nat) : List Pace → Nat
  | [] => 0
  | p :: rest => p.hertz.toNat * (p.now - last) + Pace.scaled p.now rest

def pace (callback : Callback World) (c : Clock) (world : World) :
    List Pace → Except Fault (List StepSummary × Clock × World)
  | [] => .ok ([], c, world)
  | p :: rest => do
    let (summary, c, world) ← (c.setTargetSpeed p.hertz).step callback world p.now
    let (summaries, c, world) ← pace callback c world rest
    return (summary :: summaries, c, world)

theorem paceNext {p : Pace} {summary : StepSummary}
    (stepped : (c.setTargetSpeed p.hertz).step callback world p.now = .ok (summary, d, later)) (rest : List Pace) :
    c.pace callback world (p :: rest) =
      (d.pace callback later rest).map fun (summaries, e, last) => (summary :: summaries, e, last) := by
  rw [pace, stepped, okBind]
  dsimp only
  cases d.pace callback later rest <;> rfl

def reported : List StepSummary → Nat
  | [] => 0
  | s :: rest => s.ticks.toNat + reported rest

def Paced (callback : Callback World) (c : Clock) (world : World) (last : Nat) : List Pace → Prop
  | [] => True
  | p :: rest =>
    let set := c.setTargetSpeed p.hertz
    set.timeSince last p.now / nanosPerSecond < UInt64.size ∧
    (∀ outcome d later,
      (set.stepped last p.now).advance callback world (set.ticksSince last p.now) = .ok (outcome, d, later) →
        c.total + (set.ticksSince last p.now).toNat < d.current.get + UInt64.size ∧
        d.stats.HasRoom (clampWord ((p.now - last) / 1000)) outcome.fired.toUInt64 (set.ticksSince last p.now)) ∧
    ∀ summary d later, set.step callback world p.now = .ok (summary, d, later) → Paced callback d later p.now rest

structure Converted (c : Clock) (last : Nat) (paces : List Pace) (summaries : List StepSummary) (d : Clock) :
    Prop where
  count : summaries.length = paces.length
  reports : ∀ k, reported (summaries.take k) = (c.tickFraction + Pace.scaled last (paces.take k)) / nanosPerSecond
  fraction : d.tickFraction = (c.tickFraction + Pace.scaled last paces) % nanosPerSecond
  total : d.total = c.total + reported summaries

theorem convertedNone (below : c.tickFraction < nanosPerSecond) : Converted c last [] [] c := by
  refine ⟨rfl, fun k => ?_, (Nat.mod_eq_of_lt below).symm, (Nat.add_zero _).symm⟩
  rw [List.take_nil, List.take_nil, reported, Pace.scaled, Nat.add_zero, Nat.div_eq_of_lt below]

theorem fractionCarried (time rest : Nat) :
    time / nanosPerSecond + (time % nanosPerSecond + rest) / nanosPerSecond = (time + rest) / nanosPerSecond ∧
      (time % nanosPerSecond + rest) % nanosPerSecond = (time + rest) % nanosPerSecond := by
  unfold nanosPerSecond
  omega

theorem scaledNext (c : Clock) (last : Nat) (p : Pace) (rest : List Pace) :
    c.tickFraction + Pace.scaled last (p :: rest) =
      (c.setTargetSpeed p.hertz).timeSince last p.now + Pace.scaled p.now rest := by
  have time : (c.setTargetSpeed p.hertz).timeSince last p.now = p.hertz.toNat * (p.now - last) + c.tickFraction := rfl
  rw [time, Pace.scaled]
  omega

theorem Converted.next {p : Pace} {rest : List Pace} {summary : StepSummary} {others : List StepSummary} {e : Clock}
    (ticks : summary.ticks.toNat = (c.setTargetSpeed p.hertz).timeSince last p.now / nanosPerSecond)
    (fraction : d.tickFraction = (c.setTargetSpeed p.hertz).timeSince last p.now % nanosPerSecond)
    (sum : d.total = c.total + summary.ticks.toNat) (below : c.tickFraction < nanosPerSecond)
    (onward : Converted d p.now rest others e) :
    Converted c last (p :: rest) (summary :: others) e := by
  refine ⟨congrArg Nat.succ onward.count, fun k => ?_, ?_, ?_⟩
  · cases k with
    | zero =>
      have none : Converted c last [] [] c := convertedNone below
      exact none.reports 0
    | succ k =>
      rw [List.take_succ_cons, List.take_succ_cons, reported, onward.reports, ticks, fraction, scaledNext]
      exact (fractionCarried _ _).1
  · rw [onward.fraction, fraction, scaledNext]
    exact (fractionCarried _ _).2
  · rw [onward.total, sum, reported, Nat.add_assoc]

theorem paceConverts {paces : List Pace} {summaries : List StepSummary} (running : c.state = .running)
    (reference : c.lastStep = some last) (below : c.tickFraction < nanosPerSecond)
    (paced : Paced callback c world last paces) (h : c.pace callback world paces = .ok (summaries, d, later)) :
    Converted c last paces summaries d := by
  induction paces generalizing c world last summaries with
  | nil =>
    cases h
    exact convertedNone below
  | cons p rest ih =>
    obtain ⟨⟨summary, m, between⟩, stepped, h⟩ := bindOk h
    obtain ⟨⟨others, e, after⟩, onward, same⟩ := bindOk h
    cases same
    obtain ⟨fits, kept, left⟩ := paced
    obtain ⟨ticks, fraction, state, noted, sum⟩ := stepConverts (c := c.setTargetSpeed p.hertz) running reference fits
      (fun outcome d later advanced => (kept outcome d later advanced).1) stepped
    have next := ih state noted (fraction ▸ Nat.mod_lt _ (by decide)) (left _ _ _ stepped) onward
    exact next.next ticks fraction sum below

theorem paceReturns {paces : List Pace} {bound : Nat} (returns : callback.Returns) (running : c.state = .running)
    (reference : c.lastStep = some last) (paced : Paced callback c world last paces) (exact : c.current.Normalized)
    (ready : Ready bound c.timers)
    (inside : c.total + (c.tickFraction + Pace.scaled last paces) / nanosPerSecond ≤ bound)
    (inRange : bound < Ticks.range) : ∃ summaries d later, c.pace callback world paces = .ok (summaries, d, later) := by
  induction paces generalizing c world last with
  | nil => exact ⟨[], c, world, rfl⟩
  | cons p rest ih =>
    obtain ⟨fits, kept, left⟩ := paced
    rw [scaledNext, ← (fractionCarried _ _).1] at inside
    have ticks : ((c.setTargetSpeed p.hertz).ticksSince last p.now).toNat =
        (c.setTargetSpeed p.hertz).timeSince last p.now / nanosPerSecond := clampWordExact fits
    have first : ((c.setTargetSpeed p.hertz).stepped last p.now).total +
        ((c.setTargetSpeed p.hertz).ticksSince last p.now).toNat ≤ bound := by
      rw [ticks]
      exact Nat.le_trans (Nat.add_le_add_left (Nat.le_add_right _ _) _) inside
    obtain ⟨outcome, after, between, advanced, readyNext⟩ :=
      advanceReturns (c := (c.setTargetSpeed p.hertz).stepped last p.now) returns exact ready first inRange world
    have recorded := (kept outcome after between advanced).2.record
    have stepped := stepReturns (c := c.setTargetSpeed p.hertz) running reference (timeFits fits) advanced recorded
    obtain ⟨given, fraction, state, noted, sum⟩ := stepConverts (c := c.setTargetSpeed p.hertz) running reference fits
      (fun outcome d later advanced => (kept outcome d later advanced).1) stepped
    have before : ((c.setTargetSpeed p.hertz).stepped last p.now).Normalized := ⟨exact, ready.normalized⟩
    obtain ⟨summaries, d, later, onward⟩ :=
      ih state noted (left _ _ _ stepped) (before.advanced advanced).current readyNext (by
        rw [sum, given, fraction, Nat.add_assoc]
        exact inside)
    exact ⟨_, d, later, by rw [paceNext stepped, onward]; rfl⟩

theorem scaledConstant {paces : List Pace} {hertz : UInt64} (same : ∀ p ∈ paces, p.hertz = hertz)
    (ordered : (last :: paces.map Pace.now).Pairwise (· ≤ ·)) :
    Pace.scaled last paces = hertz.toNat * ((paces.map Pace.now).getLastD last - last) := by
  induction paces generalizing last with
  | nil => simp [Pace.scaled]
  | cons p rest ih =>
    obtain ⟨own, others⟩ := List.forall_mem_cons.1 same
    obtain ⟨first, after⟩ := List.pairwise_cons.1 ordered
    have start : last ≤ p.now := first p.now List.mem_cons_self
    have finish : p.now ≤ (rest.map Pace.now).getLastD p.now := by
      rcases List.mem_cons.1 (List.getLastD_mem_cons (l := rest.map Pace.now) (a := p.now)) with here | later
      · exact Nat.le_of_eq here.symm
      · exact (List.pairwise_cons.1 after).1 _ later
    rw [Pace.scaled, ih others after, own, List.map_cons, List.getLastD_cons, ← Nat.mul_add]
    congr 1
    omega

/-- Steps of wall time report, from the first one on, the whole ticks of all the time at the speeds
it passed at; the clock is given all of them, and keeps the rest. At one speed they depend on the
instant of the last step alone, however the time is divided. -/
theorem wallTimeExact {paces : List Pace} (running : c.state = .running) (reference : c.lastStep = some last)
    (below : c.tickFraction < nanosPerSecond) (paced : Paced callback c world last paces) :
    (callback.Returns → c.Normalized →
      c.total + (c.tickFraction + Pace.scaled last paces) / nanosPerSecond + longestPeriod c.timers < Ticks.range →
      ∃ summaries d later, c.pace callback world paces = .ok (summaries, d, later)) ∧
    ∀ summaries d later, c.pace callback world paces = .ok (summaries, d, later) →
      reported summaries = (c.tickFraction + Pace.scaled last paces) / nanosPerSecond ∧
      d.tickFraction = (c.tickFraction + Pace.scaled last paces) % nanosPerSecond ∧ d.tickFraction < nanosPerSecond ∧
      d.total = c.total + reported summaries ∧ summaries.length = paces.length ∧
      (∀ k, reported (summaries.take k) = (c.tickFraction + Pace.scaled last (paces.take k)) / nanosPerSecond) ∧
      ∀ hertz, (∀ p ∈ paces, p.hertz = hertz) → (last :: paces.map Pace.now).Pairwise (· ≤ ·) →
        reported summaries =
          (c.tickFraction + hertz.toNat * ((paces.map Pace.now).getLastD last - last)) / nanosPerSecond := by
  refine ⟨fun returns normalized room => ?_, fun summaries d later h => ?_⟩
  · have ready := readyOf normalized.timers room
    exact paceReturns returns running reference paced normalized.current ready (Nat.le_refl _) (by omega)
  · have converted := paceConverts running reference below paced h
    have all := converted.reports paces.length
    rw [List.take_length, ← converted.count, List.take_length] at all
    have small : d.tickFraction < nanosPerSecond := converted.fraction ▸ Nat.mod_lt _ (by decide)
    refine ⟨all, converted.fraction, small, converted.total, converted.count, converted.reports, ?_⟩
    intro hertz same ordered
    rw [all, scaledConstant same ordered]

theorem fiveTicksReported :
    let c : Clock := { Clock.fresh with
      timers := [(⟨0⟩, ⟨true, 3, 1, 3, ⟨0, 3⟩, 0⟩)], nextId := 1, owed := 2, tickFraction := 999999999
      state := .running, lastStep := some 1000 }
    let paces : List Pace := [⟨8000000, 1126⟩, ⟨3, 1000001126⟩]
    c.state = .running ∧ c.lastStep = some 1000 ∧ c.tickFraction < nanosPerSecond ∧
      Paced .record c [] 1000 paces ∧ ∃ summaries d later, c.pace .record [] paces = .ok (summaries, d, later) ∧
        reported summaries = 5 ∧ reported (summaries.take 1) = 2 ∧ d.tickFraction = 7999999 ∧ d.total = 7 := by
  intro c paces
  let d : Clock := { c with
    timers := [(⟨0⟩, ⟨true, 3, 1, 3, ⟨0, 6⟩, 1⟩)], current := ⟨0, 4⟩, owed := 0, tickFraction := 7999999
    lastStep := some 1126, stats := ⟨0, 1, 1, 2, none⟩ }
  have first : ((c.setTargetSpeed 8000000).stepped 1000 1126).advance .record []
      ((c.setTargetSpeed 8000000).ticksSince 1000 1126) =
        .ok (⟨1, false⟩, { d with stats := .fresh }, [⟨⟨0⟩, ⟨0, 3⟩⟩]) := by cbv
  have stepped : (c.setTargetSpeed 8000000).step .record [] 1126 =
      .ok (⟨1, 2, false, none⟩, d, [⟨⟨0⟩, ⟨0, 3⟩⟩]) := by cbv
  have second : ((d.setTargetSpeed 3).stepped 1126 1000001126).advance .record [⟨⟨0⟩, ⟨0, 3⟩⟩]
      ((d.setTargetSpeed 3).ticksSince 1126 1000001126) =
        .ok (⟨1, false⟩, { d with
          targetSpeed := 3, timers := [(⟨0⟩, ⟨true, 3, 1, 3, ⟨0, 9⟩, 2⟩)], current := ⟨0, 7⟩
          lastStep := some 1000001126 }, [⟨⟨0⟩, ⟨0, 6⟩⟩, ⟨⟨0⟩, ⟨0, 3⟩⟩]) := by cbv
  have paced : Paced .record c [] 1000 paces := by
    refine ⟨by decide, fun outcome e later h => ?_, fun summary e later h => ?_⟩
    · cases first.symm.trans h
      exact ⟨by decide, by decide, by decide, by decide, by decide⟩
    · cases stepped.symm.trans h
      refine ⟨by decide, fun outcome e later h => ?_, fun _ _ _ _ => trivial⟩
      cases second.symm.trans h
      exact ⟨by decide, by decide, by decide, by decide, by decide⟩
  have reference : c.lastStep = some 1000 := rfl
  have start : c.total = 2 := by decide
  obtain ⟨returns, exact⟩ := wallTimeExact rfl reference (by decide) paced
  obtain ⟨summaries, e, later, done⟩ := returns Callback.recordReturns ⟨by decide, by decide⟩ (by decide)
  obtain ⟨all, fraction, _, total, _, parts, _⟩ := exact summaries e later done
  have five : reported summaries = 5 := all.trans (by decide)
  refine ⟨rfl, rfl, by decide, paced, summaries, e, later, done, five, ?_, fraction.trans (by decide), ?_⟩
  · exact (parts 1).trans (by decide)
  · rw [total, five, start]

end Clock

end RobotLink
