import RobotLink.Bytes
import RobotLink.Clock.Snapshot

/-! The layout of a snapshot: every field a number of fixed width, lowest byte first, the timers
behind their count. Reading takes the fields in the same order and ignores what follows them. -/
namespace RobotLink

inductive LayoutError where
  | endOfFile
  | invalidBool (byte : UInt8)
  | invalidUsage (index : UInt32)
  deriving DecidableEq, Repr

def LayoutError.message : LayoutError → String
  | .endOfFile => "io error: unexpected end of file"
  | .invalidBool byte =>
    "invalid u8 while decoding bool, expected 0 or 1, found " ++ Text.decimal byte.toNat
  | .invalidUsage index =>
    "invalid value: integer `" ++ Text.decimal index.toNat ++ "`, expected variant index 0 <= i < 4"

namespace Layout

def putWord (n : UInt64) : Bytes := Bytes.ofNat 8 n.toNat
def putHalf (n : UInt32) : Bytes := Bytes.ofNat 4 n.toNat
def putFlag (b : Bool) : Bytes := [if b then 1 else 0]
def putTicks (t : Ticks) : Bytes := putWord t.cycles ++ putWord t.remainder

def usageIndex : CpuUsage → UInt32
  | .low => 0
  | .normal => 1
  | .high => 2
  | .max => 3

def putTimer (t : TimerSnapshot) : Bytes :=
  putHalf t.id ++ putFlag t.enabled ++ putHalf t.compare ++ putHalf t.prescaler ++ putTicks t.nextMatch

def put (s : ClockSnapshot) : Bytes :=
  putTicks s.current ++ putWord s.owed ++ putWord s.targetSpeed ++ putHalf (usageIndex s.cpuUsage)
    ++ Bytes.ofNat 8 s.timers.length ++ s.timers.flatMap putTimer

abbrev Part := StateT Bytes (Except LayoutError)

def number (width : Nat) : Part Nat := do
  match Bytes.split? width (← get) with
  | some (head, tail) => set tail; return Bytes.toNat head
  | none => throw .endOfFile

def word : Part UInt64 := do return (← number 8).toUInt64
def half : Part UInt32 := do return (← number 4).toUInt32
def ticks : Part Ticks := do return ⟨← word, ← word⟩

def flag : Part Bool := do
  match ← number 1 with
  | 0 => return false
  | 1 => return true
  | n => throw (.invalidBool n.toUInt8)

def usage : Part CpuUsage := do
  match ← half with
  | 0 => return .low
  | 1 => return .normal
  | 2 => return .high
  | 3 => return .max
  | n => throw (.invalidUsage n)

def timer : Part TimerSnapshot := do return ⟨← half, ← flag, ← half, ← half, ← ticks⟩

def timers : Nat → Part (List TimerSnapshot)
  | 0 => return []
  | count + 1 => do
    let first ← timer
    let rest ← timers count
    return first :: rest

def snapshot : Part ClockSnapshot := do
  return ⟨← ticks, ← word, ← word, ← usage, ← timers (← number 8)⟩

def read (bytes : Bytes) : Except LayoutError ClockSnapshot := do return (← snapshot.run bytes).1

end Layout

end RobotLink
