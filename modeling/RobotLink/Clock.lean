import RobotLink.CpuUsage
import RobotLink.SpeedStats
import RobotLink.Timer

/-! The simulated clock: the current instant, timers in order of registration under ids that
are never given twice, and the settings that govern its steps. -/
namespace RobotLink

structure TimerId where
  id : UInt32
  deriving DecidableEq, Repr

inductive ClockState where
  | stopped
  | running
  deriving DecidableEq, Repr

namespace ClockState

def name : ClockState → String
  | .stopped => "Stopped"
  | .running => "Running"

end ClockState

inductive ClockError where
  | unknownTimer (timer : TimerId)
  | fault (cause : Fault)
  deriving DecidableEq, Repr

namespace ClockError

def message : ClockError → String
  | .unknownTimer timer => "unknown timer handle TimerHandle(" ++ Text.decimal timer.id.toNat ++ ")"
  | .fault cause => cause.message

end ClockError

structure Clock where
  targetSpeed : UInt64
  cpuUsage : CpuUsage
  timers : List (TimerId × Timer)
  nextId : UInt32
  current : Ticks
  owed : UInt64
  tickFraction : Nat
  state : ClockState
  lastStep : Option Nat
  stats : SpeedStats
  deriving DecidableEq, Repr

namespace Clock

def boardSpeed : UInt64 := 8000000

def fresh : Clock :=
  ⟨boardSpeed, .default, [], 0, .zero, 0, 0, .stopped, none, .fresh⟩

def setTargetSpeed (c : Clock) (hertz : UInt64) : Clock := { c with targetSpeed := hertz }

def setCpuUsage (c : Clock) (usage : CpuUsage) : Clock := { c with cpuUsage := usage }

def isActive (c : Clock) : Bool := c.state = .running

def start (c : Clock) : Clock :=
  if c.state = .stopped then { c with state := .running, lastStep := none } else c

def stop (c : Clock) : Clock := { c with state := .stopped }

def reset (c : Clock) : Clock :=
  { c with
    current := .zero, owed := 0, tickFraction := 0, lastStep := none, stats := .fresh
    timers := c.timers.map fun (id, t) => (id, t.setEnabled false) }

def createTimer (c : Clock) : Except Fault (TimerId × Clock) :=
  if c.nextId.toNat + 1 < UInt32.size then
    .ok (⟨c.nextId⟩, { c with nextId := c.nextId + 1, timers := c.timers ++ [(⟨c.nextId⟩, .fresh)] })
  else .error .addOverflow

def timer? (c : Clock) (id : TimerId) : Option Timer := c.timers.lookup id

def updateTimer (id : TimerId) (operation : Timer → Except Fault Timer) :
    List (TimerId × Timer) → Except ClockError (List (TimerId × Timer))
  | [] => .error (.unknownTimer id)
  | (other, t) :: rest =>
    if other = id then
      match operation t with
      | .ok u => .ok ((other, u) :: rest)
      | .error f => .error (.fault f)
    else
      match updateTimer id operation rest with
      | .ok timers => .ok ((other, t) :: timers)
      | .error e => .error e

def onTimer (c : Clock) (id : TimerId) (operation : Timer → Except Fault Timer) :
    Except ClockError Clock := do
  return { c with timers := ← updateTimer id operation c.timers }

def removeTimer (c : Clock) (id : TimerId) : Except ClockError Clock :=
  if (c.timer? id).isSome then .ok { c with timers := c.timers.eraseP (·.1 = id) }
  else .error (.unknownTimer id)

def enableTimer (c : Clock) (id : TimerId) (enabled : Bool) : Except ClockError Clock :=
  c.onTimer id fun t =>
    if t.enabled = enabled then .ok t
    else if enabled then do return (← t.arm c.current).setEnabled true
    else .ok (t.setEnabled false)

def setCompare (c : Clock) (id : TimerId) (compare : UInt32) : Except ClockError Clock :=
  c.onTimer id (·.setCompare compare c.current)

def setPrescaler (c : Clock) (id : TimerId) (prescaler : UInt32) : Except ClockError Clock :=
  c.onTimer id (·.setPrescaler prescaler c.current)

end Clock

end RobotLink
