import Mathlib
import RobotLink.Proofs.Advances
import RobotLink.Proofs.TickArithmetic

/-! Ticks as numbers. Through their count of ticks the normalized values are, in order, the integers
from zero up to the range. A sum or difference is the integer one, and faults exactly where that
leaves the range, so whatever is computed step by step is the integer result. -/
namespace RobotLink

theorem addWordFails {a b : UInt64} (beyond : UInt64.size ≤ a.toNat + b.toNat) :
    addWord a b = .error .addOverflow :=
  if_neg (Nat.not_lt.2 beyond)

namespace Ticks

theorem getLt {t : Ticks} (exact : t.Normalized) : t.get < range := by
  have cycles := t.cycles.toNat_lt
  have remainder := normalizedBound exact
  rw [getParts, rangeDigits]
  omega

def ofNumber (n : Fin range) : {t : Ticks // t.Normalized} where
  val := ⟨(n.val / 1000000).toUInt64, (n.val % 1000000).toUInt64⟩
  property := by
    apply normalizedOfBound
    rw [show (n.val % 1000000).toUInt64.toNat = _ from UInt64.toNat_ofNat_of_lt (by simp only [UInt64.size]; omega)]
    exact Nat.mod_lt _ (by decide)

theorem getOfNumber (n : Fin range) : (ofNumber n).val.get = n := by
  have inRange : n.val < 18446744073709551616000000 := n.isLt
  have cycles : (n.val / 1000000).toUInt64.toNat = n.val / 1000000 :=
    UInt64.toNat_ofNat_of_lt (by simp only [UInt64.size]; omega)
  have remainder : (n.val % 1000000).toUInt64.toNat = n.val % 1000000 :=
    UInt64.toNat_ofNat_of_lt (by simp only [UInt64.size]; omega)
  rw [getParts, ofNumber, cycles, remainder]
  exact Nat.div_add_mod' _ _

def numbers : {t : Ticks // t.Normalized} ≃o Fin range where
  toFun t := ⟨t.val.get, getLt t.property⟩
  invFun := ofNumber
  left_inv t := Subtype.ext (getInjective (ofNumber _).property t.property (getOfNumber _))
  right_inv n := Fin.ext (getOfNumber n)
  map_rel_iff' {a b} := (leGet a.property b.property).symm

section
variable {a b : Ticks}

theorem ofPartsFails {cycles remainder : UInt64} (beyond : range ≤ cycles.toNat * 1000000 + remainder.toNat) :
    ofParts cycles remainder = .error .addOverflow := by
  rw [rangeDigits] at beyond
  have word := cycles.toNat_lt
  have large : ¬ remainder < cycleLength := by
    rw [UInt64.lt_iff_toNat_lt]
    change ¬ remainder.toNat < 1000000
    omega
  have carry : (remainder / cycleLength).toNat = remainder.toNat / 1000000 := UInt64.toNat_div _ _
  have overflow : addWord cycles (remainder / cycleLength) = .error .addOverflow := by
    apply addWordFails
    rw [carry]
    simp only [UInt64.size]
    omega
  rw [ofParts, if_neg large, overflow]
  rfl

theorem addFails (first : a.Normalized) (second : b.Normalized) (beyond : range ≤ a.get + b.get) :
    a.add b = .error .addOverflow := by
  by_cases cycles : a.cycles.toNat + b.cycles.toNat < UInt64.size
  · have r := normalizedBound first
    have s := normalizedBound second
    have remainder : a.remainder.toNat + b.remainder.toNat < UInt64.size := by
      simp only [UInt64.size]
      omega
    have whole : range ≤ (a.cycles + b.cycles).toNat * 1000000 + (a.remainder + b.remainder).toNat := by
      rw [toNatAddWord (addWordMeets cycles), toNatAddWord (addWordMeets remainder), Nat.add_mul]
      rw [getParts, getParts] at beyond
      omega
    rw [add, addWordMeets cycles, addWordMeets remainder]
    exact ofPartsFails whole
  · rw [add, addWordFails (Nat.not_lt.1 cycles)]
    rfl

theorem addCountFails {n : UInt64} (first : a.Normalized) (beyond : range ≤ a.get + n.toNat) :
    a.addCount n = .error .addOverflow :=
  addFails first (ofWordNormalized n) (by rw [getOfWord]; exact beyond)

theorem checkedSubNone (earlier : a < b) : a.checkedSub b = .ok none := if_pos earlier

theorem subFails (earlier : a < b) : a.sub b = .error (.tickUnderflow a b) := by
  rw [sub, checkedSubNone earlier]
  rfl

theorem saturatingSubZero (earlier : a < b) : a.saturatingSub b = .ok zero := by
  rw [saturatingSub, checkedSubNone earlier]
  rfl

theorem saturatingSubExact (first : a.Normalized) (second : b.Normalized) :
    ∃ d, a.saturatingSub b = .ok d ∧ d.Normalized ∧ d.get = max 0 ((a.get : Int) - b.get) := by
  by_cases earlier : a < b
  · have less := (ltGet first second).1 earlier
    refine ⟨zero, saturatingSubZero earlier, by decide, ?_⟩
    change (0 : Int) = _
    omega
  · rw [ltGet first second] at earlier
    obtain ⟨d, difference, exact, total⟩ := saturatingSubMeets first second (Nat.not_lt.1 earlier)
    exact ⟨d, difference, exact, by omega⟩

theorem subMeets {d : Ticks} (difference : a.checkedSub b = .ok (some d)) : a.sub b = .ok d := by
  rw [sub, difference]
  rfl

end

structure Computes (result : Except Fault Ticks) (number : Int) (fault : Fault) : Prop where
  exact : 0 ≤ number → number < range → ∃ t, result = .ok t ∧ t.Normalized ∧ t.get = number
  faults : number < 0 ∨ range ≤ number → result = .error fault

namespace Computes
variable {result : Except Fault Ticks} {number : Int} {fault : Fault}

theorem faultsIff (h : Computes result number fault) :
    result = .error fault ↔ number < 0 ∨ range ≤ number := by
  refine ⟨fun failed => ?_, h.faults⟩
  by_contra inside
  obtain ⟨t, returned, _⟩ := h.exact (by omega) (by omega)
  cases failed.symm.trans returned

theorem value {t : Ticks} (h : Computes result number fault) (returned : result = .ok t) :
    t.Normalized ∧ t.get = number := by
  by_cases inside : 0 ≤ number ∧ number < range
  · obtain ⟨found, same, exact⟩ := h.exact inside.1 inside.2
    cases same.symm.trans returned
    exact exact
  · cases returned.symm.trans (h.faults (by omega))

end Computes

theorem ofPartsComputes (cycles remainder : UInt64) :
    Computes (ofParts cycles remainder) (cycles.toNat * 1000000 + remainder.toNat) .addOverflow := by
  constructor
  · intro _ inside
    obtain ⟨t, parts⟩ := @ofPartsMeets cycles remainder (by omega)
    have total : t.get = cycles.toNat * 1000000 + remainder.toNat := getOfParts parts
    exact ⟨t, parts, ofPartsNormalized parts, by omega⟩
  · intro outside
    exact ofPartsFails (by omega)

section
variable {a b : Ticks}

theorem addComputes (first : a.Normalized) (second : b.Normalized) :
    Computes (a.add b) (a.get + b.get) .addOverflow := by
  constructor
  · intro _ inside
    obtain ⟨c, sum, exact, total⟩ := addMeets first second (by omega)
    exact ⟨c, sum, exact, by omega⟩
  · intro outside
    exact addFails first second (by omega)

theorem subComputes (first : a.Normalized) (second : b.Normalized) :
    Computes (a.sub b) (a.get - b.get) (.tickUnderflow a b) := by
  constructor
  · intro ordered _
    obtain ⟨d, difference, exact, total⟩ := checkedSubMeets first second (by omega)
    exact ⟨d, subMeets difference, exact, by omega⟩
  · intro outside
    have inside := getLt first
    apply subFails
    rw [ltGet first second]
    omega

end

inductive Calculation where
  | word (n : UInt64)
  | parts (cycles remainder : UInt64)
  | sum (a b : Calculation)
  | difference (a b : Calculation)
  | differenceOrZero (a b : Calculation)
  deriving DecidableEq, Repr

namespace Calculation

def run : Calculation → Except Fault Ticks
  | word n => .ok (ofWord n)
  | parts cycles remainder => ofParts cycles remainder
  | sum a b => do (← a.run).add (← b.run)
  | difference a b => do (← a.run).sub (← b.run)
  | differenceOrZero a b => do (← a.run).saturatingSub (← b.run)

def number : Calculation → Int
  | word n => n.toNat
  | parts cycles remainder => cycles.toNat * 1000000 + remainder.toNat
  | sum a b => a.number + b.number
  | difference a b => a.number - b.number
  | differenceOrZero a b => max 0 (a.number - b.number)

def InRange : Calculation → Prop
  | word _ => True
  | parts cycles remainder => (parts cycles remainder).number < range
  | sum a b => a.InRange ∧ b.InRange ∧ a.number + b.number < range
  | difference a b => a.InRange ∧ b.InRange ∧ b.number ≤ a.number
  | differenceOrZero a b => a.InRange ∧ b.InRange

theorem runExact {e : Calculation} {t : Ticks} (h : e.run = .ok t) :
    e.InRange ∧ t.Normalized ∧ t.get = e.number := by
  induction e generalizing t with
  | word n =>
    cases h
    exact ⟨trivial, ofWordNormalized n, congrArg Nat.cast (getOfWord n)⟩
  | parts cycles remainder =>
    obtain ⟨exact, total⟩ := (ofPartsComputes cycles remainder).value h
    have inside := getLt exact
    refine ⟨?_, exact, total⟩
    change (cycles.toNat * 1000000 + remainder.toNat : Int) < range
    omega
  | sum a b ihA ihB =>
    obtain ⟨x, left, h⟩ := bindOk h
    obtain ⟨y, right, h⟩ := bindOk h
    obtain ⟨inA, exactA, totalA⟩ := ihA left
    obtain ⟨inB, exactB, totalB⟩ := ihB right
    obtain ⟨exact, total⟩ := (addComputes exactA exactB).value h
    have inside := getLt exact
    rw [totalA, totalB] at total
    exact ⟨⟨inA, inB, by omega⟩, exact, total⟩
  | difference a b ihA ihB =>
    obtain ⟨x, left, h⟩ := bindOk h
    obtain ⟨y, right, h⟩ := bindOk h
    obtain ⟨inA, exactA, totalA⟩ := ihA left
    obtain ⟨inB, exactB, totalB⟩ := ihB right
    obtain ⟨exact, total⟩ := (subComputes exactA exactB).value h
    rw [totalA, totalB] at total
    exact ⟨⟨inA, inB, by omega⟩, exact, total⟩
  | differenceOrZero a b ihA ihB =>
    obtain ⟨x, left, h⟩ := bindOk h
    obtain ⟨y, right, h⟩ := bindOk h
    obtain ⟨inA, exactA, totalA⟩ := ihA left
    obtain ⟨inB, exactB, totalB⟩ := ihB right
    obtain ⟨d, difference, exact, total⟩ := saturatingSubExact exactA exactB
    cases difference.symm.trans h
    rw [totalA, totalB] at total
    exact ⟨⟨inA, inB⟩, exact, total⟩

theorem runMeets {e : Calculation} (inRange : e.InRange) : ∃ t, e.run = .ok t := by
  induction e with
  | word n => exact ⟨_, rfl⟩
  | parts cycles remainder =>
    have inside : (cycles.toNat * 1000000 + remainder.toNat : Int) < range := inRange
    obtain ⟨t, returned, _⟩ := (ofPartsComputes cycles remainder).exact (by omega) inside
    exact ⟨t, returned⟩
  | sum a b ihA ihB =>
    obtain ⟨inA, inB, inside⟩ := inRange
    obtain ⟨x, left⟩ := ihA inA
    obtain ⟨y, right⟩ := ihB inB
    obtain ⟨_, exactA, totalA⟩ := runExact left
    obtain ⟨_, exactB, totalB⟩ := runExact right
    obtain ⟨t, returned, _⟩ := (addComputes exactA exactB).exact (by omega) (by omega)
    exact ⟨t, by rw [run, left, okBind, right]; exact returned⟩
  | difference a b ihA ihB =>
    obtain ⟨inA, inB, ordered⟩ := inRange
    obtain ⟨x, left⟩ := ihA inA
    obtain ⟨y, right⟩ := ihB inB
    obtain ⟨_, exactA, totalA⟩ := runExact left
    obtain ⟨_, exactB, totalB⟩ := runExact right
    have inside := getLt exactA
    obtain ⟨t, returned, _⟩ := (subComputes exactA exactB).exact (by omega) (by omega)
    exact ⟨t, by rw [run, left, okBind, right]; exact returned⟩
  | differenceOrZero a b ihA ihB =>
    obtain ⟨inA, inB⟩ := inRange
    obtain ⟨x, left⟩ := ihA inA
    obtain ⟨y, right⟩ := ihB inB
    obtain ⟨_, exactA, _⟩ := runExact left
    obtain ⟨_, exactB, _⟩ := runExact right
    obtain ⟨t, returned, _⟩ := saturatingSubExact exactA exactB
    exact ⟨t, by rw [run, left, okBind, right]; exact returned⟩

end Calculation

/-- Arithmetic on normalized values is that of the integers from zero up to the range: every sum
and difference, from whatever parts, faults if and only if the integer one is out of range, and
after any operations that all return the value is the exact integer result. -/
theorem arithmeticExact :
    (∀ t : {t : Ticks // t.Normalized}, (numbers t : Nat) = t.val.get) ∧
    (∀ cycles remainder : UInt64,
      (ofParts cycles remainder = .error .addOverflow ↔ range ≤ cycles.toNat * 1000000 + remainder.toNat) ∧
      Computes (ofParts cycles remainder) (cycles.toNat * 1000000 + remainder.toNat) .addOverflow) ∧
    (∀ n : UInt64, ofParts 0 n = .ok (ofWord n) ∧ (ofWord n).Normalized ∧ (ofWord n).get = n.toNat) ∧
    (∀ a b : Ticks, a.Normalized → b.Normalized →
      (a ≤ b ↔ a.get ≤ b.get) ∧
      (a.add b = .error .addOverflow ↔ range ≤ a.get + b.get) ∧
      Computes (a.add b) (a.get + b.get) .addOverflow ∧
      (a.sub b = .error (.tickUnderflow a b) ↔ a < b) ∧
      Computes (a.sub b) (a.get - b.get) (.tickUnderflow a b) ∧
      (a.checkedSub b = .ok none ↔ a < b) ∧
      (b ≤ a → ∃ d, a.checkedSub b = .ok (some d) ∧ d.Normalized ∧ d.get + b.get = a.get)) ∧
    ∀ e : Calculation, ((∃ t, e.run = .ok t) ↔ e.InRange) ∧
      ∀ t, e.run = .ok t → t.Normalized ∧ t.get = e.number := by
  refine ⟨fun t => rfl, fun cycles remainder => ?_, fun n => ?_, fun a b first second => ?_, fun e => ?_⟩
  · have computes := ofPartsComputes cycles remainder
    refine ⟨?_, computes⟩
    rw [computes.faultsIff]
    omega
  · obtain ⟨t, parts⟩ := @ofPartsMeets 0 n (by
      have word := n.toNat_lt
      rw [rangeDigits, UInt64.toNat_zero]
      omega)
    have total := getOfParts parts
    rw [UInt64.toNat_zero, Nat.zero_mul, Nat.zero_add, ← getOfWord] at total
    have same := getInjective (ofPartsNormalized parts) (ofWordNormalized n) total
    exact ⟨same ▸ parts, ofWordNormalized n, getOfWord n⟩
  · have sum := addComputes first second
    have difference := subComputes first second
    refine ⟨leGet first second, ?_, sum, ?_, difference, ?_, ?_⟩
    · rw [sum.faultsIff]
      omega
    · have inside := getLt first
      rw [difference.faultsIff, ltGet first second]
      omega
    · refine ⟨fun none => ?_, checkedSubNone⟩
      by_contra notEarlier
      rw [ltGet first second] at notEarlier
      obtain ⟨d, found, _⟩ := checkedSubMeets first second (Nat.not_lt.1 notEarlier)
      cases none.symm.trans found
    · intro ordered
      exact checkedSubMeets first second ((leGet second first).1 ordered)
  · exact ⟨⟨fun ⟨t, returned⟩ => (Calculation.runExact returned).1, Calculation.runMeets⟩,
      fun t returned => (Calculation.runExact returned).2⟩

theorem lastTickReached :
    let last : Ticks := ⟨0xFFFFFFFFFFFFFFFF, 999999⟩
    let before : Ticks := ⟨0xFFFFFFFFFFFFFFFF, 0⟩
    let e : Calculation := .difference (.sum (.parts 0xFFFFFFFFFFFFFFFE 1999998) (.word 1)) (.parts 3 999999)
    last.Normalized ∧ before.Normalized ∧ Ticks.Normalized ⟨0, 999999⟩ ∧ Ticks.Normalized ⟨0, 1⟩ ∧
      (∃ c, before.add ⟨0, 999999⟩ = .ok c ∧ c.Normalized ∧ (c.get : Int) = before.get + 999999) ∧
      last.add ⟨0, 1⟩ = .error .addOverflow ∧
      (∃ d, before.checkedSub ⟨0, 1⟩ = .ok (some d) ∧ d.Normalized ∧ d.get + 1 = before.get) ∧
      Ticks.sub ⟨0, 1⟩ ⟨0, 999999⟩ = .error (.tickUnderflow ⟨0, 1⟩ ⟨0, 999999⟩) ∧
      e.InRange ∧ ∃ t, e.run = .ok t ∧ t.Normalized ∧ (t.get : Int) = e.number := by
  intro last before e
  obtain ⟨_, _, _, operations, calculations⟩ := arithmeticExact
  have greatest : last.Normalized := by decide
  have boundary : before.Normalized := by decide
  have cycle : Ticks.Normalized ⟨0, 999999⟩ := by decide
  have one : Ticks.Normalized ⟨0, 1⟩ := by decide
  obtain ⟨_, _, sum, _⟩ := operations before ⟨0, 999999⟩ boundary cycle
  obtain ⟨_, overflows, _⟩ := operations last ⟨0, 1⟩ greatest one
  obtain ⟨_, _, _, _, _, _, borrows⟩ := operations before ⟨0, 1⟩ boundary one
  obtain ⟨_, _, _, underflows, _⟩ := operations ⟨0, 1⟩ ⟨0, 999999⟩ one cycle
  have inRange : e.InRange := by
    unfold e
    simp only [Calculation.InRange, Calculation.number]
    decide
  obtain ⟨t, returned⟩ := (calculations e).1.2 inRange
  exact ⟨greatest, boundary, cycle, one, sum.exact (by decide) (by decide), overflows.2 (by decide),
    borrows (by decide), underflows.2 (by decide), inRange, t, returned, (calculations e).2 t returned⟩

end Ticks

end RobotLink
