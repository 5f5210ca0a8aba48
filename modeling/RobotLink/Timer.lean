import RobotLink.Ticks

/-! A compare-match timer: compare value times prescaler is its period, and it keeps the
instant of its next match. A change of period in mid-flight keeps the elapsed fraction. -/
namespace RobotLink

structure Timer where
  enabled : Bool
  compare : UInt32
  prescaler : UInt32
  period : UInt64
  nextMatch : Ticks
  fires : Nat
  deriving DecidableEq, Repr

namespace Timer

def fresh : Timer := ⟨false, 0, 1, 0, Ticks.zero, 0⟩

/-- Switches to a new period. The distance still to go is scaled by the ratio of the
periods and rounded to nearest; a timer without a period starts a whole one. -/
def rebase (t : Timer) (period : UInt64) (now : Ticks) : Except Fault Timer :=
  if !t.enabled then .ok { t with period }
  else if t.period = 0 then do
    return { t with period, nextMatch := ← now.addCount period }
  else do
    let remaining := (← t.nextMatch.saturatingSub now).get
    let product ← mulWide remaining period.toNat
    let rounded ← addWide product (t.period.toNat / 2)
    let scaled := clampWord (rounded / t.period.toNat)
    return { t with period, nextMatch := ← now.addCount scaled }

def setEnabled (t : Timer) (enabled : Bool) : Timer := { t with enabled }

def periodOf (compare prescaler : UInt32) : UInt64 := compare.toUInt64 * prescaler.toUInt64

def setCompare (t : Timer) (compare : UInt32) (now : Ticks) : Except Fault Timer :=
  { t with compare }.rebase (periodOf compare t.prescaler) now

def setPrescaler (t : Timer) (prescaler : UInt32) (now : Ticks) : Except Fault Timer :=
  { t with prescaler }.rebase (periodOf t.compare prescaler) now

def arm (t : Timer) (now : Ticks) : Except Fault Timer := do
  return { t with nextMatch := ← now.addCount t.period }

/-- A timer of period zero would match at every instant, so it never takes part. -/
def schedulable (t : Timer) : Bool := t.enabled && 0 < t.period

def isDue (t : Timer) (instant : Ticks) : Bool := t.schedulable && t.nextMatch ≤ instant

def rearm (t : Timer) : Except Fault Timer := do
  return { t with nextMatch := ← t.nextMatch.addCount t.period }

theorem getRearm {t u : Timer} (h : t.rearm = .ok u) :
    u.nextMatch.get = t.nextMatch.get + t.period.toNat := by
  unfold rearm at h
  cases next : t.nextMatch.addCount t.period with
  | error f => simp [next, bind, Except.bind] at h
  | ok n =>
    simp only [next, bind, Except.bind, pure, Except.pure, Except.ok.injEq] at h
    subst h
    exact Ticks.getAddCount next

def countMatch (t : Timer) : Timer := { t with fires := t.fires + 1 }

def restore (t : Timer) (enabled : Bool) (compare prescaler : UInt32) (nextMatch : Ticks) : Timer :=
  { t with enabled, compare, prescaler, period := periodOf compare prescaler, nextMatch }

def describe (t : Timer) : String :=
  "en=" ++ (if t.enabled then "true" else "false")
    ++ " ocr=" ++ Text.decimal t.compare.toNat
    ++ " ps=" ++ Text.decimal t.prescaler.toNat
    ++ " true=" ++ Text.decimal t.period.toNat
    ++ " next=" ++ t.nextMatch.render
    ++ " fires=" ++ Text.decimal t.fires

end Timer

structure Alarm where
  timer : Timer
  callback : Option Nat
  deriving DecidableEq, Repr

namespace Alarm

def setCallback (a : Alarm) (label : Nat) : Alarm := { a with callback := some label }

def timeOut (a : Alarm) (instant : Ticks) : List (Nat × Ticks) × Alarm :=
  (a.callback.toList.map (·, instant), { a with timer := a.timer.countMatch })

end Alarm

end RobotLink
