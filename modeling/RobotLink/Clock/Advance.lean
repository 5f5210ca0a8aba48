import RobotLink.Clock

/-! Advancing simulated time. A step services every match up to its target, earliest first
and the earliest registered timer first among equals, one firing per elapsed period. A cap on
the firings of one step leaves the rest of its ticks owed to the next. -/
namespace RobotLink

abbrev Callback (World : Type) := TimerId → Ticks → World → Except Fault World

structure Firing where
  timer : TimerId
  instant : Ticks
  deriving DecidableEq, Repr

def Callback.record : Callback (List Firing) := fun timer instant log => .ok (⟨timer, instant⟩ :: log)

namespace Clock

def earliest? : List (TimerId × Timer) → Option (Nat × TimerId × Timer)
  | [] => none
  | (id, t) :: rest =>
    match earliest? rest with
    | none => if t.schedulable then some (0, id, t) else none
    | some (i, other, u) =>
      if t.schedulable ∧ t.nextMatch ≤ u.nextMatch then some (0, id, t) else some (i + 1, other, u)

theorem earliestAt {timers : List (TimerId × Timer)} {i : Nat} {id : TimerId} {t : Timer}
    (h : earliest? timers = some (i, id, t)) : timers[i]? = some (id, t) ∧ t.schedulable := by
  induction timers generalizing i id t with
  | nil => cases h
  | cons head rest ih =>
    obtain ⟨first, u⟩ := head
    unfold earliest? at h
    split at h
    next =>
      split at h
      next schedulable => cases h; exact ⟨rfl, schedulable⟩
      next => cases h
    next j other v later =>
      split at h
      next both => cases h; exact ⟨rfl, both.1⟩
      next => cases h; exact ih later

def horizon (target : Ticks) : Nat := target.cycles.toNat * Ticks.cycleLength.toNat + UInt64.size

theorem getLeHorizon {t target : Ticks} (h : t ≤ target) : t.get ≤ horizon target := by
  have cycles : t.cycles.toNat ≤ target.cycles.toNat := by
    rcases h with h | h
    · exact Nat.le_of_lt h
    · exact Nat.le_of_eq (congrArg UInt64.toNat h.1)
  exact Nat.add_le_add (Nat.mul_le_mul_right _ cycles) (Nat.le_of_lt t.remainder.toNat_lt)

def slack (target : Ticks) (entry : TimerId × Timer) : Nat :=
  horizon target + 1 - entry.2.nextMatch.get

theorem slackRearm {target : Ticks} {id : TimerId} {t u : Timer} (schedulable : t.schedulable)
    (due : t.nextMatch ≤ target) (rearmed : t.countMatch.rearm = .ok u) :
    slack target (id, u) < slack target (id, t) := by
  have bound := getLeHorizon due
  have moved := Timer.getRearm rearmed
  have positive : 0 < t.period.toNat := by
    simp only [Timer.schedulable, Bool.and_eq_true, decide_eq_true_eq] at schedulable
    exact schedulable.2
  simp only [slack, moved, Timer.countMatch]
  omega

def totalSlack (target : Ticks) : List (TimerId × Timer) → Nat
  | [] => 0
  | entry :: rest => slack target entry + totalSlack target rest

theorem totalSlackSet {target : Ticks} {a b : TimerId × Timer} (less : slack target b < slack target a) :
    ∀ (l : List (TimerId × Timer)) (i : Nat), l[i]? = some a →
      totalSlack target (l.set i b) < totalSlack target l
  | [], _, h => by simp at h
  | x :: l, 0, h => by
    simp only [List.getElem?_cons_zero, Option.some.injEq] at h
    subst h
    simpa [totalSlack] using less
  | x :: l, i + 1, h => by
    have tail := totalSlackSet less l i (by simpa using h)
    simpa [totalSlack] using tail

structure Sweep (World : Type) where
  current : Ticks
  timers : List (TimerId × Timer)
  fired : Nat
  world : World

inductive Sweep.Next (World : Type) where
  | finished
  | capped
  | fired (s : Sweep World)

def Sweep.next {World : Type} (callback : Callback World) (target : Ticks) (cap : Option Nat)
    (s : Sweep World) : Except Fault (Sweep.Next World) :=
  match earliest? s.timers with
  | none => .ok .finished
  | some (i, id, t) =>
    if ¬ t.nextMatch ≤ target then .ok .finished
    else if cap.any (· ≤ s.fired) then .ok .capped
    else
      match callback id t.nextMatch s.world, t.countMatch.rearm with
      | .ok world, .ok rearmed =>
        .ok (.fired {
          current := if s.current < t.nextMatch then t.nextMatch else s.current
          timers := s.timers.set i (id, rearmed), fired := s.fired + 1, world })
      | .error f, _ => .error f
      | .ok _, .error f => .error f

theorem Sweep.slackNext {World : Type} {callback : Callback World} {target : Ticks} {cap : Option Nat}
    {s n : Sweep World} (h : s.next callback target cap = .ok (.fired n)) :
    totalSlack target n.timers < totalSlack target s.timers := by
  unfold Sweep.next at h
  split at h
  next => cases h
  next i id t found =>
    split at h
    next => cases h
    next due =>
      split at h
      next => cases h
      next =>
        split at h
        next rearmed =>
          cases h
          exact totalSlackSet (slackRearm (earliestAt found).2 (Decidable.not_not.1 due) rearmed) _ _
            (earliestAt found).1
        next => cases h
        next => cases h

def Sweep.run {World : Type} (callback : Callback World) (target : Ticks) (cap : Option Nat)
    (s : Sweep World) : Except Fault (Sweep World × Bool) :=
  match _ : s.next callback target cap with
  | .error f => .error f
  | .ok .finished => .ok (s, false)
  | .ok .capped => .ok (s, true)
  | .ok (.fired n) => Sweep.run callback target cap n
termination_by totalSlack target s.timers
decreasing_by exact Sweep.slackNext ‹_›

structure Advanced where
  fired : Nat
  deferred : Bool
  deriving DecidableEq, Repr

def advance {World : Type} (callback : Callback World) (c : Clock) (world : World) (delta : UInt64) :
    Except Fault (Advanced × Clock × World) := do
  let target ← (← c.current.addCount c.owed).addCount delta
  let (s, capped) ← Sweep.run callback target c.cpuUsage.cap? ⟨c.current, c.timers, 0, world⟩
  if capped then
    let owed := (← target.saturatingSub s.current).getWord
    return (⟨s.fired, true⟩, { c with current := s.current, timers := s.timers, owed }, s.world)
  else
    return (⟨s.fired, false⟩, { c with current := target, timers := s.timers, owed := 0 }, s.world)

structure StepSummary where
  fired : Nat
  ticks : UInt64
  deferred : Bool
  speed : Option SpeedSample
  deriving DecidableEq, Repr

def StepSummary.idle : StepSummary := ⟨0, 0, false, none⟩

def nanosPerSecond : Nat := 1000000000

/-- Turns the wall time since the latest step into ticks and advances by them. The first step
of a running clock only notes its instant. -/
def step {World : Type} (callback : Callback World) (c : Clock) (world : World) (now : Nat) :
    Except Fault (StepSummary × Clock × World) := do
  if c.state ≠ .running then return (.idle, c, world)
  match c.lastStep with
  | none => return (.idle, { c with lastStep := some now }, world)
  | some last =>
    let elapsed := now - last
    let product ← mulWide c.targetSpeed.toNat elapsed
    let scaled ← addWide product c.tickFraction
    let ticks := clampWord (scaled / nanosPerSecond)
    let clock := { c with lastStep := some now, tickFraction := scaled % nanosPerSecond }
    let (outcome, clock, world) ← clock.advance callback world ticks
    let (speed, stats) ← clock.stats.record (clampWord (elapsed / 1000)) outcome.fired.toUInt64 ticks
    return (⟨outcome.fired, ticks, outcome.deferred, speed⟩, { clock with stats }, world)

end Clock

end RobotLink
