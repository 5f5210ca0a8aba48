import RobotLink.Clock

/-! What a clock is saved as and resumed from. Callbacks, match counts and the bookkeeping of
wall time are no part of it; timers are matched by id. -/
namespace RobotLink

structure TimerSnapshot where
  id : UInt32
  enabled : Bool
  compare : UInt32
  prescaler : UInt32
  nextMatch : Ticks
  deriving DecidableEq, Repr

structure ClockSnapshot where
  current : Ticks
  owed : UInt64
  targetSpeed : UInt64
  cpuUsage : CpuUsage
  timers : List TimerSnapshot
  deriving DecidableEq, Repr

namespace Clock

def saveTimer (id : TimerId) (t : Timer) : TimerSnapshot :=
  ⟨id.id, t.enabled, t.compare, t.prescaler, t.nextMatch⟩

def save (c : Clock) : ClockSnapshot :=
  ⟨c.current, c.owed, c.targetSpeed, c.cpuUsage, c.timers.map fun (id, t) => saveTimer id t⟩

def restoreTimer? (saved : TimerSnapshot) : List (TimerId × Timer) → Option (List (TimerId × Timer))
  | [] => none
  | (id, t) :: rest =>
    if id.id = saved.id then
      some ((id, t.restore saved.enabled saved.compare saved.prescaler saved.nextMatch) :: rest)
    else (restoreTimer? saved rest).map ((id, t) :: ·)

def restoreTimers : List TimerSnapshot → List (TimerId × Timer) → Nat × List (TimerId × Timer)
  | [], timers => (0, timers)
  | saved :: rest, timers =>
    match restoreTimer? saved timers with
    | some restored => restoreTimers rest restored
    | none =>
      let (skipped, restored) := restoreTimers rest timers
      (skipped + 1, restored)

def load (c : Clock) (s : ClockSnapshot) : Nat × Clock :=
  let (skipped, timers) := restoreTimers s.timers c.timers
  (skipped, { c with
    current := s.current, owed := s.owed, targetSpeed := s.targetSpeed, cpuUsage := s.cpuUsage
    tickFraction := 0, lastStep := none, timers })

end Clock

end RobotLink
