/-! The shortest decimal of a binary floating-point number. Of the decimals in the interval of
reals that round to the number, those on the coarsest grid of powers of ten have the fewest
digits; of two neighbours on that grid the nearer is taken, and the greater of two equally near. -/
namespace RobotLink.Decimal

structure Rounding where
  value : Nat
  low : Nat
  high : Nat
  denominator : Nat
  closed : Bool
  deriving DecidableEq, Repr

namespace Rounding

def admits (r : Rounding) (n : Nat) : Bool :=
  if r.closed then r.low ≤ n && n ≤ r.high else r.low < n && n < r.high

def onGrid? (r : Rounding) (step : Nat) : Option Nat :=
  let below := r.value / step
  let distance := r.value % step
  let lower := r.admits (below * step)
  let upper := r.admits ((below + 1) * step)
  if distance = 0 then some below
  else if lower && upper then some (if 2 * distance < step then below else below + 1)
  else if lower then some below
  else if upper then some (below + 1)
  else none

def search (r : Rounding) : (grids : Nat) → (exponent : Int) → Option (Nat × Int)
  | 0, _ => none
  | grids + 1, exponent =>
    let hit :=
      if 0 ≤ exponent then r.onGrid? (Nat.pow 10 exponent.toNat * r.denominator)
      else
        let scale := Nat.pow 10 (-exponent).toNat
        { r with value := r.value * scale, low := r.low * scale, high := r.high * scale }.onGrid?
          r.denominator
    match hit with
    | some n => some (n, exponent)
    | none => search r grids (exponent - 1)

end Rounding

inductive Binary where
  | notANumber
  | infinite (negative : Bool)
  | zero (negative : Bool)
  | finite (negative : Bool) (mantissa : Nat) (exponent : Int)
  deriving DecidableEq, Repr

def leadingBit : Nat := 0x10000000000000

def Binary.ofBits (bits : UInt64) : Binary :=
  let n := bits.toNat
  let negative : Bool := 0x8000000000000000 ≤ n
  let exponent : Nat := n / leadingBit % 2048
  let mantissa : Nat := n % leadingBit
  if exponent = 2047 then if mantissa = 0 then .infinite negative else .notANumber
  else if exponent = 0 then
    if mantissa = 0 then .zero negative else .finite negative mantissa (-1074)
  else .finite negative (mantissa + leadingBit) ((exponent : Int) - 1075)

def Rounding.ofFinite (mantissa : Nat) (exponent : Int) : Rounding :=
  let below := if mantissa = leadingBit then 1 else 2
  let scale := 1 <<< exponent.toNat
  ⟨4 * mantissa * scale, (4 * mantissa - below) * scale, (4 * mantissa + 2) * scale,
    4 <<< (-exponent).toNat, mantissa % 2 = 0⟩

def positional (digits : Nat) (exponent : Int) : String :=
  let text := Nat.toDigits 10 digits
  if 0 ≤ exponent then String.ofList (text ++ List.replicate exponent.toNat '0')
  else
    let places := (-exponent).toNat
    let padded := List.replicate (places + 1 - text.length) '0' ++ text
    let whole := padded.length - places
    String.ofList (padded.take whole ++ '.' :: padded.drop whole)

/-- The shortest decimal that reads back as the number of these bits, without an exponent. -/
def shortest (bits : UInt64) : String :=
  let signed (negative : Bool) (s : String) : String := if negative then "-" ++ s else s
  match Binary.ofBits bits with
  | .notANumber => "NaN"
  | .infinite negative => signed negative "inf"
  | .zero negative => signed negative "0"
  | .finite negative mantissa exponent =>
    match (Rounding.ofFinite mantissa exponent).search 640 309 with
    | some (digits, power) => signed negative (positional digits power)
    | none => signed negative "0"

end RobotLink.Decimal
