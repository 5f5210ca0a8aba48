import RobotLink.Robot

/-! One call of a timer of the simulated robot. A turn of the motor loop brings each speed nearer to its
destination and keeps the account of all the speeds driven; a pulse touches the obstacle bits alone, and a
count of the battery takes one off down to the floor. -/
namespace RobotLink.Robot

theorem toNatMin (a b : UInt32) : (min a b).toNat = min a.toNat b.toNat := by
  have least : min a b = if a ≤ b then a else b := rfl
  rw [least, Nat.min_def]
  simp only [UInt32.le_iff_toNat_le, apply_ite UInt32.toNat]

theorem toNatMax (a b : UInt32) : (max a b).toNat = max a.toNat b.toNat := by
  have greatest : max a b = if a ≤ b then b else a := rfl
  rw [greatest, Nat.max_def]
  simp only [UInt32.le_iff_toNat_le, apply_ite UInt32.toNat]

theorem orAnd (a b c : UInt32) : (a ||| b) &&& c = (a &&& c) ||| (b &&& c) := by
  apply UInt32.toBitVec_inj.1
  simp only [UInt32.toBitVec_and, UInt32.toBitVec_or, BitVec.and_or_distrib_right]

inductive Flank where
  | left
  | right
  deriving DecidableEq, Repr

def Flank.destination : Flank → Gauge
  | .left => .destSpeedLeft
  | .right => .destSpeedRight

namespace Simulation

def side (s : Simulation) : Flank → Side
  | .left => s.left
  | .right => s.right

structure Approaches (speed next dest : Nat) : Prop where
  nearer : (((next : Int) - dest).natAbs : Int) = max 0 ((((speed : Int) - dest).natAbs : Int) - 2)
  notAbove : speed ≤ dest → next ≤ dest
  notBelow : dest ≤ speed → dest ≤ next

theorem toNatRamp {speed dest : UInt32} (small : dest ≤ maxSpeed) :
    (ramp speed dest).toNat =
      if speed.toNat < dest.toNat then min (speed.toNat + 2) dest.toNat else max (speed.toNat - 2) dest.toNat := by
  have two : speedStep.toNat = 2 := rfl
  have bound : dest.toNat ≤ 200 := small
  unfold ramp
  simp only [UInt32.lt_iff_toNat_lt, two]
  split
  next less =>
    have sum : (speed + speedStep).toNat = speed.toNat + 2 := by
      rw [UInt32.toNat_add, two]
      omega
    rw [toNatMin, sum]
  next =>
    have lower : (if speed.toNat < 2 then 0 else speed - speedStep).toNat = speed.toNat - 2 := by
      split
      next none => exact (Nat.sub_eq_zero_of_le (Nat.le_of_lt none)).symm
      next enough => exact UInt32.toNat_sub_of_le _ _ (UInt32.le_iff_toNat_le.2 (Nat.le_of_not_lt enough))
    rw [toNatMax, lower]

theorem rampApproaches (speed : UInt32) {dest : UInt32} (small : dest ≤ maxSpeed) :
    Approaches speed.toNat (ramp speed dest).toNat dest.toNat := by
  rw [toNatRamp small]
  constructor <;> split <;> omega

structure Side.Accounted (side : Side) (driven : Nat) : Prop where
  speed : side.speed.toNat ≤ 200
  current : side.current.toNat = 3 * side.speed.toNat / 2
  dist : side.dist.toNat = driven / 20 % UInt32.size
  travelled : side.travelled.toNat = driven % 20

theorem Side.driveAccounts {side : Side} {driven : Nat} (accounted : side.Accounted driven) :
    ∃ next, side.drive = .ok next ∧ next.Accounted (driven + next.speed.toNat) ∧
      Approaches side.speed.toNat next.speed.toNat (min side.dest.toNat 200) ∧ next.dest = side.dest := by
  have dest : (min side.dest maxSpeed).toNat = min side.dest.toNat 200 := toNatMin ..
  have small : min side.dest maxSpeed ≤ maxSpeed := UInt32.le_iff_toNat_le.2 (dest ▸ Nat.min_le_right ..)
  have approaches := rampApproaches side.speed small
  rw [dest] at approaches
  generalize reached : ramp side.speed (min side.dest maxSpeed) = speed at approaches
  have within : speed.toNat ≤ 200 := by
    have before := accounted.speed
    have above := approaches.notAbove
    have below := approaches.nearer
    omega
  have drawn : speed.toNat * 3 < UInt32.size := by
    simp only [UInt32.size]
    omega
  have unit : distanceUnit.toNat = 20 := rfl
  have sum : (side.travelled + speed).toNat = driven % 20 + speed.toNat := by
    rw [UInt32.toNat_add, accounted.travelled]
    omega
  have turned : side.drive = .ok { side with
      speed, current := speed * 3 / 2, dist := side.dist + (side.travelled + speed) / distanceUnit
      travelled := (side.travelled + speed) % distanceUnit } := by
    rw [drive, reached, if_pos drawn]
  refine ⟨_, turned, ?_, approaches, rfl⟩
  constructor
  case speed => exact within
  case current =>
    have product : (speed * 3).toNat = 3 * speed.toNat := by
      rw [UInt32.toNat_mul, Nat.mul_comm]
      exact Nat.mod_eq_of_lt (Nat.mul_comm .. ▸ drawn)
    rw [UInt32.toNat_div, product]
    rfl
  case dist =>
    rw [UInt32.toNat_add, UInt32.toNat_div, sum, unit, accounted.dist]
    simp only [UInt32.size]
    omega
  case travelled =>
    simp only [UInt32.toNat_mod, sum, unit]
    omega

theorem clearTwice (bits : UInt32) : clearObstacles (clearObstacles bits) = clearObstacles bits := by
  simp only [clearObstacles, UInt32.and_assoc, UInt32.and_self]

theorem pulseSensors (s : Simulation) :
    clearObstacles s.pulse.values.stateSensors = clearObstacles s.values.stateSensors ∧
      (s.pulse.values.stateSensors &&& obstacleLeft = 0 ∨ s.pulse.values.stateSensors &&& obstacleRight = 0) := by
  obtain ⟨seen, one, bits⟩ : ∃ seen, (seen = 0 ∨ seen = obstacleLeft ∨ seen = obstacleRight) ∧
      s.pulse.values.stateSensors = clearObstacles s.values.stateSensors ||| seen := by
    refine ⟨_, ?_, rfl⟩
    unfold obstacles
    grind
  have left : clearObstacles s.values.stateSensors &&& obstacleLeft = 0 := by
    rw [clearObstacles, UInt32.and_assoc]
    exact UInt32.and_zero
  have right : clearObstacles s.values.stateSensors &&& obstacleRight = 0 := by
    rw [clearObstacles, UInt32.and_assoc]
    exact UInt32.and_zero
  rw [bits]
  refine ⟨?_, ?_⟩
  · conv => lhs; rw [clearObstacles, orAnd]
    change clearObstacles (clearObstacles _) ||| _ = _
    rw [clearTwice]
    rcases one with rfl | rfl | rfl <;> exact UInt32.or_zero
  · rcases one with rfl | rfl | rfl
    · exact .inl (by rw [orAnd, left]; rfl)
    · exact .inr (by rw [orAnd, right]; rfl)
    · exact .inl (by rw [orAnd, left]; rfl)

theorem drainBattery {s : Simulation} {drained : Nat} (level : s.values.battery.toNat = max 550 (800 - drained)) :
    s.drain.values.battery.toNat = max 550 (800 - (drained + 1)) := by
  have floor : batteryFloor.toNat = 550 := rfl
  have one : (1 : UInt32).toNat = 1 := rfl
  unfold drain
  simp only [UInt32.lt_iff_toNat_lt, floor]
  split
  next above =>
    have less : (1 : UInt32) ≤ s.values.battery := UInt32.le_iff_toNat_le.2 (by omega)
    simp only [UInt32.toNat_sub_of_le _ _ less]
    omega
  next => omega

end Simulation
end RobotLink.Robot
