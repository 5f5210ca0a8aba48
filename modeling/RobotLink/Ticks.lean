import RobotLink.Text.Digits

/-! Simulated time as whole cycles of a million ticks and a remainder, with the faults of
word arithmetic. Sums are exact or a fault; the order compares cycles first, which is the
numeric order on normalized values. -/
namespace RobotLink

structure Ticks where
  cycles : UInt64
  remainder : UInt64
  deriving DecidableEq, Repr

inductive Fault where
  | addOverflow
  | subOverflow
  | mulOverflow
  | tickUnderflow (minuend subtrahend : Ticks)
  deriving DecidableEq, Repr

def addWord (a b : UInt64) : Except Fault UInt64 :=
  if a.toNat + b.toNat < UInt64.size then .ok (a + b) else .error .addOverflow

def subWord (a b : UInt64) : Except Fault UInt64 :=
  if b ≤ a then .ok (a - b) else .error .subOverflow

theorem toNatAddWord {a b c : UInt64} (h : addWord a b = .ok c) : c.toNat = a.toNat + b.toNat := by
  unfold addWord at h
  split at h
  next fits =>
    cases h
    rw [UInt64.toNat_add]
    exact Nat.mod_eq_of_lt fits
  next => cases h

def clampWord (n : Nat) : UInt64 :=
  if n < UInt64.size then n.toUInt64 else 0xFFFFFFFFFFFFFFFF

def wideSize : Nat := 0x100000000000000000000000000000000

def addWide (a b : Nat) : Except Fault Nat :=
  if a + b < wideSize then .ok (a + b) else .error .addOverflow

def mulWide (a b : Nat) : Except Fault Nat :=
  if a * b < wideSize then .ok (a * b) else .error .mulOverflow

namespace Ticks

def cycleLength : UInt64 := 1000000

def zero : Ticks := ⟨0, 0⟩

def get (t : Ticks) : Nat := t.cycles.toNat * cycleLength.toNat + t.remainder.toNat

def getWord (t : Ticks) : UInt64 := clampWord t.get

def Normalized (t : Ticks) : Prop := t.remainder < cycleLength
instance (t : Ticks) : Decidable t.Normalized := by unfold Normalized; infer_instance

def ofWord (n : UInt64) : Ticks := ⟨n / cycleLength, n % cycleLength⟩

def ofParts (cycles remainder : UInt64) : Except Fault Ticks :=
  if remainder < cycleLength then .ok ⟨cycles, remainder⟩
  else do return ⟨← addWord cycles (remainder / cycleLength), remainder % cycleLength⟩

def add (a b : Ticks) : Except Fault Ticks := do
  let cycles ← addWord a.cycles b.cycles
  let remainder ← addWord a.remainder b.remainder
  ofParts cycles remainder

def addCount (a : Ticks) (n : UInt64) : Except Fault Ticks := a.add (ofWord n)

theorem getOfWord (n : UInt64) : (ofWord n).get = n.toNat := by
  simp only [get, ofWord, UInt64.toNat_div, UInt64.toNat_mod]
  exact Nat.div_add_mod' _ _

theorem getOfParts {cycles remainder : UInt64} {t : Ticks} (h : ofParts cycles remainder = .ok t) :
    t.get = cycles.toNat * cycleLength.toNat + remainder.toNat := by
  unfold ofParts at h
  split at h
  next => cases h; rfl
  next =>
    cases sum : addWord cycles (remainder / cycleLength) with
    | error f => simp [sum, bind, Except.bind] at h
    | ok c =>
      simp only [sum, bind, Except.bind, pure, Except.pure, Except.ok.injEq] at h
      subst h
      have total := toNatAddWord sum
      simp only [get, UInt64.toNat_mod, total, UInt64.toNat_div, Nat.add_mul, Nat.add_assoc]
      congr 1
      exact Nat.div_add_mod' _ _

theorem getAdd {a b c : Ticks} (h : a.add b = .ok c) : c.get = a.get + b.get := by
  unfold add at h
  cases cycles : addWord a.cycles b.cycles with
  | error f => simp [cycles, bind, Except.bind] at h
  | ok m =>
    cases remainder : addWord a.remainder b.remainder with
    | error f => simp [cycles, remainder, bind, Except.bind] at h
    | ok r =>
      simp only [cycles, remainder, bind, Except.bind] at h
      have total := getOfParts h
      rw [toNatAddWord cycles, toNatAddWord remainder, Nat.add_mul] at total
      rw [total]
      simp only [get]
      omega

theorem getAddCount {a c : Ticks} {n : UInt64} (h : a.addCount n = .ok c) :
    c.get = a.get + n.toNat := by
  rw [getAdd h, getOfWord]

instance : LT Ticks := ⟨fun a b => a.cycles < b.cycles ∨ a.cycles = b.cycles ∧ a.remainder < b.remainder⟩
instance : LE Ticks := ⟨fun a b => a.cycles < b.cycles ∨ a.cycles = b.cycles ∧ a.remainder ≤ b.remainder⟩
instance (a b : Ticks) : Decidable (a < b) :=
  inferInstanceAs (Decidable (a.cycles < b.cycles ∨ a.cycles = b.cycles ∧ a.remainder < b.remainder))
instance (a b : Ticks) : Decidable (a ≤ b) :=
  inferInstanceAs (Decidable (a.cycles < b.cycles ∨ a.cycles = b.cycles ∧ a.remainder ≤ b.remainder))
instance : Ord Ticks := ⟨fun a b => compareOfLessAndEq a b⟩

/-- The difference, or nothing when `b` is later than `a`. A cycle is borrowed when the
remainder of `b` is the greater; on values that are not normalized the borrow may not suffice. -/
def checkedSub (a b : Ticks) : Except Fault (Option Ticks) :=
  if a < b then .ok none
  else if b.remainder ≤ a.remainder then do
    return some ⟨← subWord a.cycles b.cycles, a.remainder - b.remainder⟩
  else do
    let cycles ← subWord (← subWord a.cycles b.cycles) 1
    return some ⟨cycles, ← subWord cycleLength (b.remainder - a.remainder)⟩

def saturatingSub (a b : Ticks) : Except Fault Ticks := do
  return (← a.checkedSub b).getD zero

def sub (a b : Ticks) : Except Fault Ticks := do
  match ← a.checkedSub b with
  | some d => return d
  | none => throw (.tickUnderflow a b)

def render (t : Ticks) : String :=
  Text.decimal t.cycles.toNat ++ ":" ++ Text.paddedDecimal 6 t.remainder.toNat

end Ticks

def Fault.message : Fault → String
  | .addOverflow => "attempt to add with overflow"
  | .subOverflow => "attempt to subtract with overflow"
  | .mulOverflow => "attempt to multiply with overflow"
  | .tickUnderflow a b => "tick underflow: " ++ a.render ++ " - " ++ b.render

end RobotLink
