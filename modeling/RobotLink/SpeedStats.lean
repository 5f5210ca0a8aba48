import RobotLink.Ticks

/-! Effective clock speed. Steps are summed until they cover a second of wall time; then a
sample scaled to exactly one second is issued and the sums start over. -/
namespace RobotLink

structure SpeedSample where
  runsPerSecond : UInt64
  timeoutsPerSecond : UInt64
  ticksPerSecond : UInt64
  meanDelta : UInt64
  deriving DecidableEq, Repr

structure SpeedStats where
  delta : UInt64
  runs : UInt64
  timeouts : UInt64
  ticks : UInt64
  last : Option SpeedSample
  deriving DecidableEq, Repr

namespace SpeedStats

def window : UInt64 := 1000000

def fresh : SpeedStats := ⟨0, 0, 0, 0, none⟩

def perSecond (sum delta : UInt64) : UInt64 :=
  (sum.toNat * window.toNat / delta.toNat).toUInt64

def sample (s : SpeedStats) : SpeedSample :=
  ⟨perSecond s.runs s.delta, perSecond s.timeouts s.delta, perSecond s.ticks s.delta, s.delta / s.runs⟩

def record (s : SpeedStats) (delta timeouts ticks : UInt64) :
    Except Fault (Option SpeedSample × SpeedStats) := do
  let delta ← addWord s.delta delta
  let runs ← addWord s.runs 1
  let timeouts ← addWord s.timeouts timeouts
  let ticks ← addWord s.ticks ticks
  let sums : SpeedStats := ⟨delta, runs, timeouts, ticks, s.last⟩
  if delta < window then return (none, sums)
  else return (some sums.sample, { fresh with last := some sums.sample })

end SpeedStats

end RobotLink
