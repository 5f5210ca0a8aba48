import RobotLink.Text.Utf8

/-! Console text of the robot's serial line: bytes in any pieces become lines, ended by a line
feed or cut at a greatest length; a command is written with a line feed behind it. -/
namespace RobotLink

structure LineBuffer where
  pending : Bytes
  deriving DecidableEq, Repr

namespace LineBuffer

def lineFeed : UInt8 := 10
def carriageReturn : UInt8 := 13

def maxLength : Nat := 1024

def empty : LineBuffer := ⟨[]⟩

def terminated : Bytes → List Bytes × Bytes
  | [] => ([], [])
  | b :: rest =>
    if b = lineFeed then ([] :: (terminated rest).1, (terminated rest).2)
    else
      match terminated rest with
      | ([], tail) => ([], b :: tail)
      | (line :: lines, tail) => ((b :: line) :: lines, tail)

def cutLong (bs : Bytes) : List Bytes × Bytes :=
  match h : Bytes.split? maxLength bs with
  | none => ([], bs)
  | some (head, tail) =>
    have : tail.length < bs.length := by
      obtain ⟨rfl, len⟩ := Bytes.splitSome.1 h
      simp [len, maxLength]
    (head :: (cutLong tail).1, (cutLong tail).2)
termination_by bs.length

/-- The raw segments that these bytes complete. Line feeds are looked for first, so that only
a rest without any is cut. -/
def segments (buffer : LineBuffer) (bytes : Bytes) : List Bytes × LineBuffer :=
  let (lines, rest) := terminated (buffer.pending ++ bytes)
  let (cuts, rest) := cutLong rest
  (lines ++ cuts, ⟨rest⟩)

def stripReturn (line : Bytes) : Bytes :=
  if line.getLast? = some carriageReturn then line.dropLast else line

def toText (line : Bytes) : String := Text.lenient (stripReturn line)

def push (buffer : LineBuffer) (bytes : Bytes) : List String × LineBuffer :=
  let (lines, buffer) := buffer.segments bytes
  (lines.map toText, buffer)

def flush (buffer : LineBuffer) : Option String × LineBuffer :=
  (if buffer.pending.isEmpty then none else some (toText buffer.pending), empty)

end LineBuffer

def commandBytes (command : String) : Bytes := Bytes.ofText command ++ [LineBuffer.lineFeed]

end RobotLink
