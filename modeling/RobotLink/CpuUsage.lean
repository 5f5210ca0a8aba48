/-! The share of the host's processor given to a simulation: the pause between two steps,
and how many matches one step may service. -/
namespace RobotLink

inductive CpuUsage where
  | low
  | normal
  | high
  | max
  deriving DecidableEq, Repr, Inhabited

namespace CpuUsage

def default : CpuUsage := .normal

def sleepNanos : CpuUsage → Nat
  | .low => 2000000
  | .normal => 500000
  | .high => 50000
  | .max => 0

def cap? : CpuUsage → Option Nat
  | .low => some 1000
  | .normal => some 10000
  | .high => some 50000
  | .max => none

def name : CpuUsage → String
  | .low => "Low"
  | .normal => "Normal"
  | .high => "High"
  | .max => "Max"

structure Unknown where
  text : String
  deriving DecidableEq, Repr

def Unknown.message (e : Unknown) : String :=
  "unknown CPU usage '" ++ e.text ++ "' (expected low, normal, high or max)"

def parse (text : String) : Except Unknown CpuUsage :=
  let lower := text.map Char.toLower
  if lower = "low" then .ok .low
  else if lower = "normal" then .ok .normal
  else if lower = "high" then .ok .high
  else if lower = "max" then .ok .max
  else .error ⟨lower⟩

end CpuUsage

end RobotLink
