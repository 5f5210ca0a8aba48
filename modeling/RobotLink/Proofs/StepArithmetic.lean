import RobotLink.Proofs.WallTime

/-! The arithmetic of timed steps. At any speed the wall time of a step fits into a wide word, its
ticks are clamped to a word, and the sums over a window stay words as long as one counts the steps and
the matches; the ticks of the steps of a window are the only sum that can leave it. -/
namespace RobotLink
namespace SpeedStats
variable {s : SpeedStats} {micros fired given : UInt64}

theorem recordOverflows (delta : s.delta.toNat + micros.toNat < UInt64.size) (runs : s.runs.toNat + 1 < UInt64.size)
    (timeouts : s.timeouts.toNat + fired.toNat < UInt64.size) (beyond : UInt64.size ≤ s.ticks.toNat + given.toNat) :
    s.record micros fired given = .error .addOverflow := by
  have ticks : addWord s.ticks given = .error .addOverflow := if_neg (Nat.not_lt.2 beyond)
  unfold record
  rw [addWordMeets delta, addWordMeets runs, addWordMeets timeouts, ticks]
  rfl

structure Scales (s : SpeedStats) : Prop where
  delta : 0 < s.delta.toNat
  runs : 0 < s.runs.toNat
  products : ∀ sum ∈ [s.runs, s.timeouts, s.ticks], sum.toNat * window.toNat < wideSize
  rates : ∀ sum ∈ [s.runs, s.timeouts, s.ticks],
    (perSecond sum s.delta).toNat = sum.toNat * window.toNat / s.delta.toNat

theorem perSecondExact (sum : UInt64) {delta : UInt64} (whole : window.toNat ≤ delta.toNat) :
    (perSecond sum delta).toNat = sum.toNat * window.toNat / delta.toNat := by
  have least : sum.toNat * window.toNat / delta.toNat ≤ sum.toNat := by
    apply Nat.div_le_of_le_mul
    rw [Nat.mul_comm]
    exact Nat.mul_le_mul_right _ whole
  exact UInt64.toNat_ofNat_of_lt (Nat.lt_of_le_of_lt least sum.toNat_lt)

theorem scales (whole : window.toNat ≤ s.delta.toNat) (runs : 0 < s.runs.toNat) : s.Scales := by
  have positive : 0 < window.toNat := by decide
  refine ⟨Nat.lt_of_lt_of_le positive whole, runs, fun sum _ => ?_, fun sum _ => perSecondExact sum whole⟩
  have product := Nat.mul_le_mul_right window.toNat (Nat.le_of_lt sum.toNat_lt)
  exact Nat.lt_of_le_of_lt product (by decide)

inductive Recorded (s : SpeedStats) (micros fired given : UInt64) : Option SpeedSample → SpeedStats → Prop
  | within {next : SpeedStats} (below : s.delta.toNat + micros.toNat < window.toNat)
      (delta : next.delta.toNat = s.delta.toNat + micros.toNat) (runs : next.runs.toNat = s.runs.toNat + 1)
      (timeouts : next.timeouts.toNat = s.timeouts.toNat + fired.toNat)
      (ticks : next.ticks.toNat = s.ticks.toNat + given.toNat) : Recorded s micros fired given none next
  | covered {sums : SpeedStats} (reached : window.toNat ≤ s.delta.toNat + micros.toNat) (scales : sums.Scales) :
      Recorded s micros fired given (some sums.sample) { fresh with last := some sums.sample }

theorem HasRoom.recorded (room : s.HasRoom micros fired given) :
    ∃ sample next, s.record micros fired given = .ok (sample, next) ∧ Recorded s micros fired given sample next := by
  have delta : (s.summed micros fired given).delta.toNat = s.delta.toNat + micros.toNat :=
    toNatAddWord (addWordMeets room.delta)
  have runs : (s.summed micros fired given).runs.toNat = s.runs.toNat + 1 :=
    toNatAddWord (addWordMeets (b := 1) room.runs)
  have timeouts : (s.summed micros fired given).timeouts.toNat = s.timeouts.toNat + fired.toNat :=
    toNatAddWord (addWordMeets room.timeouts)
  have ticks : (s.summed micros fired given).ticks.toNat = s.ticks.toNat + given.toNat :=
    toNatAddWord (addWordMeets room.ticks)
  rw [room.record]
  by_cases below : (s.summed micros fired given).delta < window
  · rw [if_pos below]
    refine ⟨_, _, rfl, .within ?_ delta runs timeouts ticks⟩
    rw [← delta]
    exact UInt64.lt_iff_toNat_lt.1 below
  · rw [if_neg below]
    have reached : window.toNat ≤ (s.summed micros fired given).delta.toNat := by
      rw [UInt64.lt_iff_toNat_lt] at below
      exact Nat.not_lt.1 below
    exact ⟨_, _, rfl, .covered (delta ▸ reached) (scales reached (by omega))⟩

end SpeedStats

namespace Timer

def matchesUpTo (bound : Nat) (t : Timer) : Nat :=
  if t.schedulable then (bound + t.period.toNat - t.nextMatch.get) / t.period.toNat else 0

theorem matchesRearmed {bound : Nat} {t u : Timer} (on : t.schedulable) (due : t.nextMatch.get ≤ bound)
    (rearmed : t.countMatch.rearm = .ok u) : u.matchesUpTo bound + 1 = t.matchesUpTo bound := by
  obtain ⟨next, rfl, _, sum⟩ := rearmMeets rearmed
  have positive := ((schedulableIff t).1 on).2
  have takesPart : ({ t with nextMatch := next, fires := t.fires + 1 } : Timer).schedulable := on
  rw [matchesUpTo, matchesUpTo, if_pos on, if_pos takesPart]
  dsimp only
  rw [sum, ← Nat.add_div_right _ positive]
  congr 1
  omega

end Timer

namespace Clock
variable {World : Type} {callback : Callback World} {c d : Clock} {world later : World} {last bound : Nat}

def matchesUpTo (bound : Nat) : List (TimerId × Timer) → Nat
  | [] => 0
  | (_, t) :: rest => t.matchesUpTo bound + matchesUpTo bound rest

theorem matchesSet {id : TimerId} {t u : Timer} (on : t.schedulable) (due : t.nextMatch.get ≤ bound)
    (rearmed : t.countMatch.rearm = .ok u) {timers : List (TimerId × Timer)} {i : Nat}
    (place : timers[i]? = some (id, t)) : matchesUpTo bound (timers.set i (id, u)) + 1 = matchesUpTo bound timers := by
  induction timers generalizing i with
  | nil => cases place
  | cons head rest ih =>
    cases i with
    | zero =>
      cases place
      have one := Timer.matchesRearmed on due rearmed
      rw [List.set_cons_zero, matchesUpTo, matchesUpTo]
      omega
    | succ i =>
      have tail := ih place
      rw [List.set_cons_succ, matchesUpTo, matchesUpTo]
      omega

theorem strikesCounted {timers after : List (TimerId × Timer)} {strikes : List Strike}
    (h : Strikes timers strikes after) (due : ∀ s ∈ strikes, s.instant.get ≤ bound) :
    strikes.length + matchesUpTo bound after = matchesUpTo bound timers := by
  induction h with
  | none timers => exact Nat.zero_add _
  | next found rearmed rest ih =>
    obtain ⟨first, others⟩ := List.forall_mem_cons.1 due
    obtain ⟨place, on⟩ := earliestAt found
    have one := matchesSet on first rearmed place
    have left := ih others
    rw [List.length_cons]
    omega

theorem advanceCounts {delta : UInt64} (returns : callback.Returns) (exact : c.current.Normalized)
    (ready : Ready bound c.timers) (inside : c.total + delta.toNat ≤ bound) (inRange : bound < Ticks.range)
    (world : World) :
    ∃ outcome d later, c.advance callback world delta = .ok (outcome, d, later) ∧ Ready bound d.timers ∧
      outcome.fired + matchesUpTo bound d.timers = matchesUpTo bound c.timers := by
  obtain ⟨target, strikes, after, capped, _, sum, struck, left, early, _, same⟩ :=
    advanceMeets exact ready inside inRange
  obtain ⟨last, served⟩ := returns.serve strikes world
  have timers : (c.atEnd target strikes after capped).timers = after := by cases capped <;> rfl
  refine ⟨⟨strikes.length, capped⟩, c.atEnd target strikes after capped, last, ?_, ?_, ?_⟩
  · rw [same, served]
    rfl
  · rw [timers]
    exact left
  · rw [timers]
    exact strikesCounted struck fun s member => Nat.le_trans (early s member) (sum ▸ inside)

structure Metered (c : Clock) : Prop where
  fraction : c.tickFraction < nanosPerSecond
  window : c.stats.delta < SpeedStats.window

theorem Metered.kept (h : c.Metered) (fraction : d.tickFraction = c.tickFraction) (stats : d.stats = c.stats) :
    d.Metered :=
  ⟨fraction ▸ h.fraction, stats ▸ h.window⟩

theorem recordBelow {s next : SpeedStats} {micros fired given : UInt64} {sample : Option SpeedSample}
    (h : s.record micros fired given = .ok (sample, next)) : next.delta < SpeedStats.window := by
  obtain ⟨delta, _, h⟩ := bindOk h
  obtain ⟨runs, _, h⟩ := bindOk h
  obtain ⟨timeouts, _, h⟩ := bindOk h
  obtain ⟨ticks, _, h⟩ := bindOk h
  dsimp only at h
  split at h
  next below => cases h; exact below
  next =>
    cases h
    exact show (0 : UInt64) < SpeedStats.window by decide

theorem Metered.advanced {delta : UInt64} {outcome : Advanced} (h : c.Metered)
    (advanced : c.advance callback world delta = .ok (outcome, d, later)) : d.Metered := by
  obtain ⟨_, _, swept⟩ := advanceSwept advanced
  exact h.kept (by rw [swept.settings]) (by rw [swept.settings])

theorem Metered.stepped {now : Nat} {summary : StepSummary} (h : c.Metered)
    (stepped : c.step callback world now = .ok (summary, d, later)) : d.Metered := by
  obtain ⟨last, outcome, after, steps⟩ | ⟨_, _, rfl | rfl⟩ := stepCases stepped
  · have before : (c.stepped last now).Metered := ⟨Nat.mod_lt _ (by decide), h.window⟩
    refine ⟨?_, recordBelow steps.record⟩
    rw [steps.clock]
    exact (before.advanced steps.advance).fraction
  · exact h
  · exact h.kept rfl rfl

theorem Metered.settled {result : Except ClockError Clock} {outcome : Outcome} (h : c.Metered)
    (settled : c.settle world result = .ok (outcome, d, later))
    (kept : ∀ e, result = .ok e → e.tickFraction = c.tickFraction ∧ e.stats = c.stats) : d.Metered := by
  rcases settleOk settled with rfl | done
  · exact h
  · exact h.kept (kept d done).1 (kept d done).2

theorem onTimerKept {id : TimerId} {operation : Timer → Except Fault Timer} (h : c.onTimer id operation = .ok d) :
    d.tickFraction = c.tickFraction ∧ d.stats = c.stats := by
  obtain ⟨timers, _, same⟩ := bindOk h
  cases same
  exact ⟨rfl, rfl⟩

theorem Metered.performed {op : Operation} {outcome : Outcome} (h : c.Metered)
    (performed : c.perform callback world op = .ok (outcome, d, later)) : d.Metered := by
  cases op with
  | create =>
    obtain ⟨_, created, same⟩ := mapOk performed
    cases same
    obtain ⟨_, _, made⟩ := createOk created
    exact h.kept (by rw [made]) (by rw [made])
  | remove id =>
    refine h.settled performed fun e removed => ?_
    obtain rfl := removeOk removed
    exact ⟨rfl, rfl⟩
  | enable | setCompare | setPrescaler => exact h.settled performed fun e => onTimerKept
  | setCpuUsage | setTargetSpeed | stop | save =>
    cases performed
    exact h.kept rfl rfl
  | start =>
    cases performed
    unfold start
    split <;> exact h.kept rfl rfl
  | reset =>
    cases performed
    exact ⟨Nat.zero_lt_succ _, show (0 : UInt64) < SpeedStats.window by decide⟩
  | load saved =>
    cases performed
    exact ⟨Nat.zero_lt_succ _, h.window⟩
  | advance delta =>
    obtain ⟨_, advanced, same⟩ := mapOk performed
    cases same
    exact h.advanced advanced
  | step now =>
    obtain ⟨_, stepped, same⟩ := mapOk performed
    cases same
    exact h.stepped stepped

theorem Reachable.metered (h : c.Reachable) : c.Metered := by
  induction h with
  | fresh => exact ⟨by decide, by decide⟩
  | perform _ performed before => exact before.performed performed

def Pace.time (p : Pace) (last fraction : Nat) : Nat := p.hertz.toNat * (p.now - last) + fraction

def Pace.given (p : Pace) (last fraction : Nat) : Nat := min (p.time last fraction / nanosPerSecond) (UInt64.size - 1)

def granted (last fraction : Nat) : List Pace → Nat
  | [] => 0
  | p :: rest => p.given last fraction + granted p.now (p.time last fraction % nanosPerSecond) rest

/-- In each window of the statistics the ticks of its steps make a word, from sums over the current one on. -/
def WindowsFit (last fraction micros ticks : Nat) : List Pace → Prop
  | [] => True
  | p :: rest =>
    let left := p.time last fraction % nanosPerSecond
    ticks + p.given last fraction < UInt64.size ∧
      if micros + (p.now - last) / 1000 < SpeedStats.window.toNat then
        WindowsFit p.now left (micros + (p.now - last) / 1000) (ticks + p.given last fraction) rest
      else WindowsFit p.now left 0 0 rest

theorem paceTime (p : Pace) : (c.setTargetSpeed p.hertz).timeSince last p.now = p.time last c.tickFraction := rfl

theorem paceGiven (p : Pace) :
    ((c.setTargetSpeed p.hertz).ticksSince last p.now).toNat = p.given last c.tickFraction :=
  clampWordLeast _

theorem paceFits {p : Pace} (below : c.tickFraction < nanosPerSecond) (offset : p.now < UInt64.size) :
    (c.setTargetSpeed p.hertz).timeSince last p.now < wideSize := by
  have gap : p.now - last ≤ UInt64.size - 1 := by omega
  have product := Nat.mul_le_mul (Nat.le_sub_one_of_lt p.hertz.toNat_lt) gap
  rw [paceTime, Pace.time]
  simp only [nanosPerSecond, UInt64.size, wideSize] at *
  omega

structure Driven (bound count : Nat) (c : Clock) (last : Nat) : Prop where
  running : c.state = .running
  reference : c.lastStep = some last
  metered : c.Metered
  current : c.current.Normalized
  ready : Ready bound c.timers
  runs : c.stats.runs.toNat + count < UInt64.size
  timeouts : c.stats.timeouts.toNat + matchesUpTo bound c.timers < UInt64.size

structure Driven.Advances (bound : Nat) (callback : Callback World) (c : Clock) (world : World) (last : Nat) (p : Pace)
    (outcome : Advanced) (after : Clock) (later : World) : Prop where
  advanced : ((c.setTargetSpeed p.hertz).stepped last p.now).advance callback world
    ((c.setTargetSpeed p.hertz).ticksSince last p.now) = .ok (outcome, after, later)
  kept : after = { c with
    targetSpeed := p.hertz, lastStep := some p.now, tickFraction := p.time last c.tickFraction % nanosPerSecond
    current := after.current, timers := after.timers, owed := after.owed }
  current : after.current.Normalized
  ready : Ready bound after.timers
  total : after.total ≤ c.total + p.given last c.tickFraction
  counted : outcome.fired + matchesUpTo bound after.timers = matchesUpTo bound c.timers

theorem Driven.advances {count : Nat} {p : Pace} (driven : Driven bound count c last) (returns : callback.Returns)
    (inRange : bound < Ticks.range) (inside : c.total + p.given last c.tickFraction ≤ bound) (world : World) :
    ∃ outcome after later, Driven.Advances bound callback c world last p outcome after later := by
  have given : ((c.setTargetSpeed p.hertz).stepped last p.now).total +
      ((c.setTargetSpeed p.hertz).ticksSince last p.now).toNat = c.total + p.given last c.tickFraction :=
    congrArg _ (paceGiven p)
  obtain ⟨outcome, after, later, advanced, ready, counted⟩ :=
    advanceCounts (c := (c.setTargetSpeed p.hertz).stepped last p.now) returns driven.current driven.ready
      (Nat.le_trans (Nat.le_of_eq given) inside) inRange world
  obtain ⟨target, m, swept⟩ := advanceSwept advanced
  have normalized : ((c.setTargetSpeed p.hertz).stepped last p.now).Normalized :=
    ⟨driven.current, driven.ready.normalized⟩
  refine ⟨outcome, after, later, advanced, ?_, (normalized.advanced advanced).current, ready, ?_, counted⟩
  · rw [swept.settings]
    rfl
  · rw [advanceTotal advanced, given]
    exact Nat.min_le_left _ _

section
variable {count : Nat} {p : Pace} {outcome : Advanced} {after : Clock}

theorem paceMicros (last : Nat) (offset : p.now < UInt64.size) :
    (clampWord ((p.now - last) / 1000)).toNat = (p.now - last) / 1000 :=
  clampWordExact (by omega)

theorem Driven.Advances.stats (advances : Driven.Advances bound callback c world last p outcome after later) :
    after.stats = c.stats := by
  rw [advances.kept]

theorem Driven.Advances.fired (advances : Driven.Advances bound callback c world last p outcome after later)
    (driven : Driven bound (count + 1) c last) : outcome.fired.toUInt64.toNat = outcome.fired := by
  have left := driven.timeouts
  have counted := advances.counted
  exact UInt64.toNat_ofNat_of_lt (by omega)

theorem Driven.Advances.room (advances : Driven.Advances bound callback c world last p outcome after later)
    (driven : Driven bound (count + 1) c last) (offset : p.now < UInt64.size) :
    after.stats.delta.toNat + (clampWord ((p.now - last) / 1000)).toNat < UInt64.size ∧
      after.stats.runs.toNat + 1 < UInt64.size ∧
      after.stats.timeouts.toNat + outcome.fired.toUInt64.toNat < UInt64.size := by
  have window : c.stats.delta.toNat < 1000000 := UInt64.lt_iff_toNat_lt.1 driven.metered.window
  have runs := driven.runs
  have timeouts := driven.timeouts
  have counted := advances.counted
  rw [advances.stats, advances.fired driven, paceMicros last offset]
  simp only [UInt64.size] at *
  omega

theorem Driven.Advances.overflows (advances : Driven.Advances bound callback c world last p outcome after later)
    (driven : Driven bound (count + 1) c last) (offset : p.now < UInt64.size)
    (beyond : UInt64.size ≤ c.stats.ticks.toNat + p.given last c.tickFraction) :
    (c.setTargetSpeed p.hertz).step callback world p.now = .error .addOverflow := by
  obtain ⟨delta, runs, timeouts⟩ := advances.room driven offset
  have ticks : UInt64.size ≤ after.stats.ticks.toNat + ((c.setTargetSpeed p.hertz).ticksSince last p.now).toNat := by
    rw [advances.stats, paceGiven]
    exact beyond
  rw [stepOpens (c := c.setTargetSpeed p.hertz) callback world driven.running driven.reference
    (paceFits driven.metered.fraction offset), advances.advanced, okBind]
  simp only [SpeedStats.recordOverflows delta runs timeouts ticks]
  rfl

def Scaled (s : StepSummary) : Prop :=
  ∀ sample, s.speed = some sample → ∃ sums : SpeedStats, sample = sums.sample ∧ sums.Scales

structure Driven.Next (bound count : Nat) (c : Clock) (last : Nat) (p : Pace) (d : Clock) : Prop where
  driven : Driven bound count d p.now
  total : d.total ≤ c.total + p.given last c.tickFraction
  fraction : d.tickFraction = p.time last c.tickFraction % nanosPerSecond
  within : c.stats.delta.toNat + (p.now - last) / 1000 < SpeedStats.window.toNat →
    d.stats.delta.toNat = c.stats.delta.toNat + (p.now - last) / 1000 ∧
      d.stats.ticks.toNat = c.stats.ticks.toNat + p.given last c.tickFraction
  covered : ¬ c.stats.delta.toNat + (p.now - last) / 1000 < SpeedStats.window.toNat →
    d.stats.delta.toNat = 0 ∧ d.stats.ticks.toNat = 0

theorem Driven.Next.windows (next : Driven.Next bound count c last p d)
    (fits : c.stats.ticks.toNat + p.given last c.tickFraction < UInt64.size) (rest : List Pace) :
    WindowsFit last c.tickFraction c.stats.delta.toNat c.stats.ticks.toNat (p :: rest) ↔
      WindowsFit p.now d.tickFraction d.stats.delta.toNat d.stats.ticks.toNat rest := by
  rw [WindowsFit, next.fraction]
  by_cases below : c.stats.delta.toNat + (p.now - last) / 1000 < SpeedStats.window.toNat
  · rw [if_pos below, (next.within below).1, (next.within below).2]
    exact and_iff_right fits
  · rw [if_neg below, (next.covered below).1, (next.covered below).2]
    exact and_iff_right fits

theorem Driven.Advances.returns (advances : Driven.Advances bound callback c world last p outcome after later)
    (driven : Driven bound (count + 1) c last) (offset : p.now < UInt64.size)
    (fits : c.stats.ticks.toNat + p.given last c.tickFraction < UInt64.size) :
    ∃ summary d, (c.setTargetSpeed p.hertz).step callback world p.now = .ok (summary, d, later) ∧
      Scaled summary ∧ Driven.Next bound count c last p d := by
  obtain ⟨delta, runs, timeouts⟩ := advances.room driven offset
  have ticks : after.stats.ticks.toNat + ((c.setTargetSpeed p.hertz).ticksSince last p.now).toNat < UInt64.size := by
    rw [advances.stats, paceGiven]
    exact fits
  obtain ⟨sample, next, recorded, sums⟩ := SpeedStats.HasRoom.recorded ⟨delta, runs, timeouts, ticks⟩
  have stepped := stepReturns (c := c.setTargetSpeed p.hertz) driven.running driven.reference
    (paceFits driven.metered.fraction offset) advances.advanced recorded
  have state : after.state = .running := by
    rw [advances.kept]
    exact driven.running
  have reference : after.lastStep = some p.now := by rw [advances.kept]
  have fraction : after.tickFraction = p.time last c.tickFraction % nanosPerSecond := by rw [advances.kept]
  have below : after.tickFraction < nanosPerSecond := fraction ▸ Nat.mod_lt _ (by decide)
  have room := driven.runs
  have spare := driven.timeouts
  have counted := advances.counted
  have fired := advances.fired driven
  have micros := paceMicros last offset
  rw [advances.stats] at sums
  cases sums with
  | within inWindow delta runs timeouts ticks =>
    rw [micros] at inWindow delta
    rw [fired] at timeouts
    rw [paceGiven] at ticks
    refine ⟨_, _, stepped, nofun, ?_, advances.total, fraction, fun _ => ⟨delta, ticks⟩, absurd inWindow⟩
    · refine ⟨state, reference, ⟨below, recordBelow recorded⟩, advances.current, advances.ready, ?_, ?_⟩
      · dsimp only
        omega
      · dsimp only
        omega
  | covered reached scales =>
    rw [micros] at reached
    have notBelow := Nat.not_lt.2 reached
    refine ⟨_, _, stepped, ?_, ?_, advances.total, fraction, fun below => absurd below notBelow, fun _ => ⟨rfl, rfl⟩⟩
    · intro sample same
      cases same
      exact ⟨_, rfl, scales⟩
    · refine ⟨state, reference, ⟨below, recordBelow recorded⟩, advances.current, advances.ready, ?_, ?_⟩
      · change 0 + count < UInt64.size
        omega
      · change 0 + matchesUpTo bound after.timers < UInt64.size
        omega

end

inductive Overflows (callback : Callback World) : Clock → World → List Pace → Prop
  | here {c after : Clock} {world later : World} {last : Nat} {p : Pace} {rest : List Pace} {outcome : Advanced}
      (reference : c.lastStep = some last)
      (advanced : ((c.setTargetSpeed p.hertz).stepped last p.now).advance callback world
        ((c.setTargetSpeed p.hertz).ticksSince last p.now) = .ok (outcome, after, later))
      (beyond : UInt64.size ≤ c.stats.ticks.toNat + p.given last c.tickFraction) :
      Overflows callback c world (p :: rest)
  | next {c d : Clock} {world later : World} {p : Pace} {rest : List Pace} {summary : StepSummary}
      (stepped : (c.setTargetSpeed p.hertz).step callback world p.now = .ok (summary, d, later))
      (onward : Overflows callback d later rest) : Overflows callback c world (p :: rest)

theorem paceEnds {paces : List Pace} (world : World) (returns : callback.Returns)
    (driven : Driven bound paces.length c last) (offsets : ∀ p ∈ paces, p.now < UInt64.size) (inRange : bound < Ticks.range)
    (inside : c.total + granted last c.tickFraction paces ≤ bound) :
    (WindowsFit last c.tickFraction c.stats.delta.toNat c.stats.ticks.toNat paces →
      ∃ summaries d later, c.pace callback world paces = .ok (summaries, d, later) ∧ ∀ s ∈ summaries, Scaled s) ∧
    (¬ WindowsFit last c.tickFraction c.stats.delta.toNat c.stats.ticks.toNat paces →
      c.pace callback world paces = .error .addOverflow ∧ Overflows callback c world paces) := by
  induction paces generalizing c world last with
  | nil => exact ⟨fun _ => ⟨[], c, world, rfl, nofun⟩, fun unfit => absurd trivial unfit⟩
  | cons p rest ih =>
    obtain ⟨offset, others⟩ := List.forall_mem_cons.1 offsets
    rw [granted] at inside
    obtain ⟨outcome, after, between, advances⟩ := driven.advances (p := p) returns inRange (by omega) world
    by_cases fits : c.stats.ticks.toNat + p.given last c.tickFraction < UInt64.size
    · obtain ⟨summary, d, stepped, scaled, next⟩ := advances.returns driven offset fits
      have sum := next.total
      obtain ⟨whole, unfit⟩ := ih between next.driven others (by rw [next.fraction]; omega)
      rw [next.windows fits, paceNext stepped]
      refine ⟨fun fit => ?_, fun beyond => ?_⟩
      · obtain ⟨summaries, e, later, paced, samples⟩ := whole fit
        rw [paced]
        exact ⟨_, _, _, rfl, List.forall_mem_cons.2 ⟨scaled, samples⟩⟩
      · obtain ⟨failed, onto⟩ := unfit beyond
        rw [failed]
        exact ⟨rfl, .next stepped onto⟩
    · have beyond := Nat.not_lt.1 fits
      refine ⟨fun fit => absurd fit.1 fits, fun _ => ⟨?_, .here driven.reference advances.advanced beyond⟩⟩
      rw [pace, advances.overflows driven offset beyond]
      rfl

theorem windowsFit {paces : List Pace} {fraction micros ticks : Nat}
    (fits : ticks + granted last fraction paces < UInt64.size) : WindowsFit last fraction micros ticks paces := by
  induction paces generalizing last fraction micros ticks with
  | nil => trivial
  | cons p rest ih =>
    rw [granted] at fits
    refine ⟨by omega, ?_⟩
    split
    · exact ih (by omega)
    · exact ih (by omega)

theorem grantedLe (last fraction : Nat) (paces : List Pace) :
    granted last fraction paces ≤ (fraction + Pace.scaled last paces) / nanosPerSecond := by
  induction paces generalizing last fraction with
  | nil => exact Nat.zero_le _
  | cons p rest ih =>
    have first : p.given last fraction ≤ p.time last fraction / nanosPerSecond := Nat.min_le_left _ _
    have others := ih p.now (p.time last fraction % nanosPerSecond)
    have carried := (fractionCarried (p.time last fraction) (Pace.scaled p.now rest)).1
    have sum : fraction + Pace.scaled last (p :: rest) = p.time last fraction + Pace.scaled p.now rest := by
      rw [Pace.scaled, Pace.time]
      omega
    rw [granted, sum]
    omega

theorem scaledLe {paces : List Pace} {hertz limit : Nat} (bounded : ∀ p ∈ paces, p.hertz.toNat ≤ hertz ∧ p.now ≤ limit)
    (ordered : (last :: paces.map Pace.now).Pairwise (· ≤ ·)) : Pace.scaled last paces ≤ hertz * (limit - last) := by
  induction paces generalizing last with
  | nil => exact Nat.zero_le _
  | cons p rest ih =>
    obtain ⟨⟨speed, early⟩, others⟩ := List.forall_mem_cons.1 bounded
    obtain ⟨first, after⟩ := List.pairwise_cons.1 ordered
    have start : last ≤ p.now := first p.now List.mem_cons_self
    have own := Nat.mul_le_mul_right (p.now - last) speed
    have span : limit - last = p.now - last + (limit - p.now) := by omega
    rw [Pace.scaled, span, Nat.mul_add]
    exact Nat.add_le_add own (ih others after)

/-- A running clock whose timed steps stay in range, with words to count the steps and the matches, comes
to its last step, and scales each sample on the way, unless the ticks of the steps in one window of the
statistics make no word: their sum is all that overflows. It never does if all the wall time at the
highest speed is less than a word of ticks, as it is from a start at any speed up to a tick in a nanosecond. -/
theorem timedStepsReturn {ops : List Operation} (unloaded : ∀ op ∈ ops, op.loads = false)
    (ran : (fresh.run callback world ops).2 = .ok (c, later)) (running : c.state = .running)
    (returns : callback.Returns) :
    (c.lastStep = none → ∀ now, c.step callback later now = .ok (.idle, { c with lastStep := some now }, later)) ∧
    ∀ last paces, c.lastStep = some last → (∀ p ∈ paces, p.now < UInt64.size) →
      c.total + granted last c.tickFraction paces + longestPeriod c.timers < Ticks.range →
      c.stats.runs.toNat + paces.length < UInt64.size →
      c.stats.timeouts.toNat + matchesUpTo (c.total + granted last c.tickFraction paces) c.timers < UInt64.size →
      (WindowsFit last c.tickFraction c.stats.delta.toNat c.stats.ticks.toNat paces →
        ∃ summaries d after, c.pace callback later paces = .ok (summaries, d, after) ∧ ∀ s ∈ summaries, Scaled s) ∧
      (¬ WindowsFit last c.tickFraction c.stats.delta.toNat c.stats.ticks.toNat paces →
        c.pace callback later paces = .error .addOverflow ∧ Overflows callback c later paces) ∧
      ∀ hertz limit, (last :: paces.map Pace.now).Pairwise (· ≤ ·) →
        (∀ p ∈ paces, p.hertz.toNat ≤ hertz ∧ p.now ≤ limit) →
        c.stats.ticks.toNat + (c.tickFraction + hertz * (limit - last)) / nanosPerSecond < UInt64.size →
        WindowsFit last c.tickFraction c.stats.delta.toNat c.stats.ticks.toNat paces := by
  refine ⟨fun first now => ?_, fun last paces reference offsets room runs timeouts => ?_⟩
  · unfold step
    rw [if_neg (by simpa using running), first]
    rfl
  · have phase := freshInPhase.run ran unloaded
    have driven : Driven (c.total + granted last c.tickFraction paces) paces.length c last :=
      ⟨running, reference, (Reachable.fresh.run ran).metered, phase.current, readyOf phase.normalized room, runs,
        timeouts⟩
    obtain ⟨whole, beyond⟩ := paceEnds later returns driven offsets (by omega) (Nat.le_refl _)
    refine ⟨whole, beyond, fun hertz limit ordered bounded fits => windowsFit ?_⟩
    have time := scaledLe bounded ordered
    have all := Nat.div_le_div_right (c := nanosPerSecond) (Nat.add_le_add_left time c.tickFraction)
    have given := Nat.le_trans (grantedLe last c.tickFraction paces) all
    omega

theorem windowClosed :
    let ops : List Operation := [.create, .setCompare ⟨0⟩ 1000000, .enable ⟨0⟩ true, .setCpuUsage .low, .start, .step 5]
    let c : Clock := { fresh with
      timers := [(⟨0⟩, ⟨true, 1000000, 1, 1000000, ⟨1, 0⟩, 0⟩)], nextId := 1, cpuUsage := .low
      state := .running, lastStep := some 5 }
    let paces : List Pace := [⟨8000000, 600000005⟩, ⟨18446744073709551615, 1200000005⟩]
    (fresh.run .record [] ops).2 = .ok (c, []) ∧ WindowsFit 5 0 0 0 paces ∧
      ∃ summaries d after, c.pace .record [] paces = .ok (summaries, d, after) ∧ ∀ s ∈ summaries, Scaled s := by
  intro ops c paces
  have ran : (fresh.run .record [] ops).2 = .ok (c, []) := by cbv
  have fit : WindowsFit 5 0 0 0 paces := by
    refine ⟨by decide, ?_⟩
    rw [if_pos (by decide)]
    refine ⟨by decide, ?_⟩
    rw [if_neg (by decide)]
    trivial
  have steps := (timedStepsReturn (by decide) ran rfl Callback.recordReturns).2 5 paces rfl (by decide) (by decide)
    (by decide) (by decide)
  exact ⟨ran, fit, steps.1 fit⟩

theorem ticksOverflow :
    let ops : List Operation := [.setTargetSpeed 18446744073709551615, .start, .step 0, .step 600000000]
    let c : Clock := { fresh with
      targetSpeed := 18446744073709551615, state := .running, lastStep := some 600000000
      current := ⟨11068046444225, 730969⟩, stats := ⟨600000, 1, 0, 11068046444225730969, none⟩ }
    (fresh.run .record [] ops).2 = .ok (c, []) ∧
      c.total + (Pace.given ⟨18446744073709551615, 1200000000⟩ 600000000 c.tickFraction) < Ticks.range ∧
      (fresh.run .record [] (ops ++ [.step 1200000000])).2 = .error .addOverflow := by
  intro ops c
  exact ⟨by cbv, by decide, by cbv⟩

end Clock
end RobotLink
