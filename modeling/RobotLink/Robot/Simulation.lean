import RobotLink.Clock.Advance
import RobotLink.Robot.Values

/-! What the robot's timers do: a pulse timer raises the obstacle bits in fixed windows of its
count, a motor timer moves each speed toward its destination and adds up distance, and a battery
timer drains the battery down to a floor. -/
namespace RobotLink.Robot

structure Simulation where
  values : Values
  pulses : UInt32
  travelledLeft : UInt32
  travelledRight : UInt32
  deriving DecidableEq, Repr

namespace Simulation

def initial : Simulation := ⟨.initial, 0, 0, 0⟩

def obstacleLeft : UInt32 := 4
def obstacleRight : UInt32 := 8
def pulseWindow : UInt32 := 1000
def maxSpeed : UInt32 := 200
def speedStep : UInt32 := 2
def distanceUnit : UInt32 := 20
def batteryFloor : UInt32 := 550

def clearObstacles (bits : UInt32) : UInt32 := bits &&& ~~~(obstacleLeft ||| obstacleRight)

def obstacles (pulses : UInt32) : UInt32 :=
  if 200 ≤ pulses ∧ pulses < 260 then obstacleLeft
  else if 600 ≤ pulses ∧ pulses < 660 then obstacleRight
  else 0

def pulse (s : Simulation) : Simulation :=
  let pulses := (s.pulses + 1) % pulseWindow
  let seen := if s.values.acsPower = 0 then 0 else obstacles pulses
  { s with pulses, values.stateSensors := clearObstacles s.values.stateSensors ||| seen }

def ramp (speed dest : UInt32) : UInt32 :=
  if speed < dest then min (speed + speedStep) dest
  else max (if speed < speedStep then 0 else speed - speedStep) dest

structure Side where
  speed : UInt32
  dest : UInt32
  dist : UInt32
  current : UInt32
  travelled : UInt32
  deriving DecidableEq, Repr

def Side.drive (side : Side) : Except Fault Side :=
  let speed := ramp side.speed (min side.dest maxSpeed)
  if speed.toNat * 3 < UInt32.size then
    let travelled := side.travelled + speed
    .ok { side with
      speed, current := speed * 3 / 2, dist := side.dist + travelled / distanceUnit
      travelled := travelled % distanceUnit }
  else .error .mulOverflow

def left (s : Simulation) : Side :=
  ⟨s.values.speedLeft, s.values.destSpeedLeft, s.values.distLeft, s.values.currentLeft, s.travelledLeft⟩

def right (s : Simulation) : Side :=
  ⟨s.values.speedRight, s.values.destSpeedRight, s.values.distRight, s.values.currentRight, s.travelledRight⟩

def drive (s : Simulation) : Except Fault Simulation := do
  let left ← s.left.drive
  let right ← s.right.drive
  let values := { s.values with
    speedLeft := left.speed, distLeft := left.dist, currentLeft := left.current
    speedRight := right.speed, distRight := right.dist, currentRight := right.current }
  return { s with values, travelledLeft := left.travelled, travelledRight := right.travelled }

def drain (s : Simulation) : Simulation :=
  if batteryFloor < s.values.battery then { s with values.battery := s.values.battery - 1 } else s

inductive Role where
  | pulse
  | motor
  | battery
  deriving DecidableEq, Repr

namespace Role

def all : List Role := [.pulse, .motor, .battery]

def compare : Role → UInt32
  | .pulse => 250
  | .motor => 1250
  | .battery => 62500

def prescaler : Role → UInt32
  | .pulse => 64
  | .motor => 64
  | .battery => 1024

def ofId? (timer : TimerId) : Option Role := all[timer.id.toNat]?

end Role

def act (s : Simulation) : Role → Except Fault Simulation
  | .pulse => .ok s.pulse
  | .motor => s.drive
  | .battery => .ok s.drain

def callback : Callback Simulation := fun timer _ s =>
  match Role.ofId? timer with
  | some role => s.act role
  | none => .ok s

def installTimer (c : Clock) (role : Role) : Except ClockError Clock := do
  let (timer, c) ← c.createTimer.mapError ClockError.fault
  let c ← c.setPrescaler timer role.prescaler
  let c ← c.setCompare timer role.compare
  c.enableTimer timer true

def install (c : Clock) : Except ClockError Clock := Role.all.foldlM installTimer c

end Simulation

end RobotLink.Robot
