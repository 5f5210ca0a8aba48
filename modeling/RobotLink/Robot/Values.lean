import RobotLink.Message

/-! The values that a robot shares with its clients: fourteen 32-bit words, each published under
its opcode as the nearest byte or the low word that the opcode's width holds. -/
namespace RobotLink.Robot

structure Values where
  stateSensors : UInt32
  motorDirections : UInt32
  speedLeft : UInt32
  speedRight : UInt32
  destSpeedLeft : UInt32
  destSpeedRight : UInt32
  distLeft : UInt32
  distRight : UInt32
  currentLeft : UInt32
  currentRight : UInt32
  battery : UInt32
  lightLeft : UInt32
  lightRight : UInt32
  acsPower : UInt32
  deriving DecidableEq, Repr

inductive Gauge where
  | stateSensors
  | motorDirections
  | speedLeft
  | speedRight
  | destSpeedLeft
  | destSpeedRight
  | distLeft
  | distRight
  | currentLeft
  | currentRight
  | battery
  | lightLeft
  | lightRight
  | acsPower
  deriving DecidableEq, Repr

namespace Gauge

def all : List Gauge :=
  [.stateSensors, .motorDirections, .speedLeft, .speedRight, .destSpeedLeft, .destSpeedRight, .distLeft,
    .distRight, .currentLeft, .currentRight, .battery, .lightLeft, .lightRight, .acsPower]

theorem memAll (g : Gauge) : g ∈ all := by cases g <;> decide

def opcode : Gauge → Opcode
  | .stateSensors => .stateSensors
  | .motorDirections => .motorDirections
  | .speedLeft => .motorSpeedLeft
  | .speedRight => .motorSpeedRight
  | .destSpeedLeft => .motorDestSpeedLeft
  | .destSpeedRight => .motorDestSpeedRight
  | .distLeft => .motorDistLeft
  | .distRight => .motorDistRight
  | .currentLeft => .motorCurrentLeft
  | .currentRight => .motorCurrentRight
  | .battery => .battery
  | .lightLeft => .lightLeft
  | .lightRight => .lightRight
  | .acsPower => .acsPower

def name : Gauge → String
  | .stateSensors => "state_sensors"
  | .motorDirections => "motor_dirs"
  | .speedLeft => "speed_left"
  | .speedRight => "speed_right"
  | .destSpeedLeft => "dest_speed_left"
  | .destSpeedRight => "dest_speed_right"
  | .distLeft => "dist_left"
  | .distRight => "dist_right"
  | .currentLeft => "current_left"
  | .currentRight => "current_right"
  | .battery => "battery"
  | .lightLeft => "light_left"
  | .lightRight => "light_right"
  | .acsPower => "acs_power"

def ofName? (name : String) : Option Gauge := all.find? (·.name = name)

end Gauge

namespace Values

def batteryFull : UInt32 := 800

def initial : Values := ⟨0, 0, 0, 0, 0, 0, 0, 0, 0, 0, batteryFull, 400, 380, 1⟩

def get (v : Values) : Gauge → UInt32
  | .stateSensors => v.stateSensors
  | .motorDirections => v.motorDirections
  | .speedLeft => v.speedLeft
  | .speedRight => v.speedRight
  | .destSpeedLeft => v.destSpeedLeft
  | .destSpeedRight => v.destSpeedRight
  | .distLeft => v.distLeft
  | .distRight => v.distRight
  | .currentLeft => v.currentLeft
  | .currentRight => v.currentRight
  | .battery => v.battery
  | .lightLeft => v.lightLeft
  | .lightRight => v.lightRight
  | .acsPower => v.acsPower

def set (v : Values) (g : Gauge) (n : UInt32) : Values :=
  match g with
  | .stateSensors => { v with stateSensors := n }
  | .motorDirections => { v with motorDirections := n }
  | .speedLeft => { v with speedLeft := n }
  | .speedRight => { v with speedRight := n }
  | .destSpeedLeft => { v with destSpeedLeft := n }
  | .destSpeedRight => { v with destSpeedRight := n }
  | .distLeft => { v with distLeft := n }
  | .distRight => { v with distRight := n }
  | .currentLeft => { v with currentLeft := n }
  | .currentRight => { v with currentRight := n }
  | .battery => { v with battery := n }
  | .lightLeft => { v with lightLeft := n }
  | .lightRight => { v with lightRight := n }
  | .acsPower => { v with acsPower := n }

theorem getSet (v : Values) (g other : Gauge) (n : UInt32) :
    (v.set g n).get other = if other = g then n else v.get other := by
  cases g <;> cases other <;> rfl

def toList (v : Values) : List UInt32 := Gauge.all.map v.get

end Values

def publish (op : Opcode) (value : UInt32) : Message :=
  match op.standardWidth? with
  | some .byte => .byte op (if value < 255 then value.toUInt8 else 255)
  | _ => .word op value.toUInt16

structure Publication where
  sent : Option Values
  deriving DecidableEq, Repr

namespace Publication

def fresh : Publication := ⟨none⟩

def changes (p : Publication) (v : Values) : List Message :=
  Gauge.all.filterMap fun g =>
    if p.sent.map (·.get g) = some (v.get g) then none else some (publish g.opcode (v.get g))

def update (p : Publication) (v : Values) : List Message × Publication := (p.changes v, ⟨some v⟩)

def resendAll (_ : Publication) : Publication := fresh

end Publication

end RobotLink.Robot
