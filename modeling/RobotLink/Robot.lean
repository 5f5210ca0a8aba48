import RobotLink.Clock.Driven
import RobotLink.Clock.Snapshot
import RobotLink.Robot.Simulation
import RobotLink.Text.Blank
import RobotLink.Text.Number

/-! A simulated robot: its timers on a driven clock, the publication of its values, and the
console commands it understands. A command that it does not understand or turns down changes none
of its values. -/
namespace RobotLink

structure Robot where
  simulation : Robot.Simulation
  clock : DrivenClock
  publication : Robot.Publication
  deriving DecidableEq, Repr

namespace Robot
open Simulation (maxSpeed)

def backwards : UInt32 := 3

def start (clockSpeed : UInt64) (usage : CpuUsage) (saved : Option ClockSnapshot) :
    Except ClockError Robot := do
  let installed ← Simulation.install ((Clock.fresh.setTargetSpeed clockSpeed).setCpuUsage usage)
  let clock := match saved with
    | some snapshot => (installed.load snapshot).2
    | none => installed
  return ⟨.initial, .start clock, .fresh⟩

def values (r : Robot) : Values := r.simulation.values

def setValues (r : Robot) (values : Values) : Robot :=
  { r with simulation := { r.simulation with values } }

def set (r : Robot) (g : Gauge) (n : UInt32) : Robot := r.setValues (r.values.set g n)

def changed (r : Robot) : List Message × Robot :=
  let (messages, publication) := r.publication.update r.values
  (messages, { r with publication })

def resendAll (r : Robot) : Robot := { r with publication := r.publication.resendAll }

def clockStopped : String := "clock thread is not running"

def send (r : Robot) (command : ClockCommand) (reply : String) : String × Robot :=
  match r.clock.send command with
  | (true, clock) => (reply, { r with clock })
  | (false, _) => (clockStopped, r)

def setSpeed (r : Robot) (left right : String) : String × Robot :=
  match Text.natural? UInt32.size left, Text.natural? UInt32.size right with
  | some l, some r' =>
    if l ≤ maxSpeed.toNat ∧ r' ≤ maxSpeed.toNat then
      ("speed " ++ Text.decimal l ++ " " ++ Text.decimal r',
        r.setValues { r.values with destSpeedLeft := l.toUInt32, destSpeedRight := r'.toUInt32 })
    else (rejected, r)
  | _, _ => (rejected, r)
where
  rejected : String := "speed must be 0..=" ++ Text.decimal maxSpeed.toNat

def setClockSpeed (r : Robot) (hertz : String) : String × Robot :=
  match Text.natural? UInt64.size hertz with
  | some n =>
    if 0 < n then r.send (.setTargetSpeed n.toUInt64) ("clock speed " ++ Text.decimal n)
    else (rejected, r)
  | none => (rejected, r)
where
  rejected : String := "clock speed must be a positive integer"

def setClockUsage (r : Robot) (usage : String) : String × Robot :=
  match CpuUsage.parse usage with
  | .ok u => r.send (.setCpuUsage u) ("clock cpu " ++ u.name)
  | .error e => (e.message, r)

def command (r : Robot) (line : String) : Option (String × Robot) :=
  match Text.words line with
  | ["set", "speed", left, right] => some (r.setSpeed left right)
  | ["set", "dir", "fwd"] => some ("dir fwd", r.setValues { r.values with motorDirections := 0 })
  | ["set", "dir", "bwd"] => some ("dir bwd", r.setValues { r.values with motorDirections := backwards })
  | ["stop"] => some ("stopped", r.setValues { r.values with destSpeedLeft := 0, destSpeedRight := 0 })
  | ["acs", "on"] => some ("acs on", r.setValues { r.values with acsPower := 1 })
  | ["acs", "off"] => some ("acs off", r.setValues { r.values with acsPower := 0 })
  | ["clock", "speed", hertz] => some (r.setClockSpeed hertz)
  | ["clock", "cpu", usage] => some (r.setClockUsage usage)
  | ["clock"] => some ("clock " ++ Text.decimal r.clock.publishedSpeed.toNat ++ " ticks/s", r)
  | _ => none

def wake (r : Robot) (now : Nat) : Except Fault Robot := do
  let (clock, simulation) ← r.clock.wake Simulation.callback r.simulation now
  return { r with clock, simulation }

def stop (r : Robot) : Clock := r.clock.stop

end Robot

end RobotLink
