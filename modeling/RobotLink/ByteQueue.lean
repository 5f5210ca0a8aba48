import RobotLink.Bytes

/-! Bytes that arrive in pieces and wait to be taken. A piece is put behind the others without
moving them, and the number of bytes is known without counting them. -/
namespace RobotLink

def Bytes.unwind : List Bytes → Bytes → Bytes
  | [], tail => tail
  | piece :: earlier, tail => unwind earlier (if tail.isEmpty then piece else piece ++ tail)

theorem Bytes.unwindAppend (pieces : List Bytes) (tail : Bytes) :
    unwind pieces tail = unwind pieces [] ++ tail := by
  have join (piece tail : Bytes) : (if tail.isEmpty then piece else piece ++ tail) = piece ++ tail := by
    cases tail <;> simp
  induction pieces generalizing tail with
  | nil => rfl
  | cons piece earlier ih =>
    simp only [unwind, join]
    rw [ih, ih (piece ++ [])]
    simp

theorem Bytes.unwindCons (piece : Bytes) (earlier : List Bytes) :
    unwind (piece :: earlier) [] = unwind earlier [] ++ piece := by
  rw [← unwindAppend earlier piece]
  rfl

structure ByteQueue where
  pieces : List Bytes
  size : Nat
  counted : size = (Bytes.unwind pieces []).length
  deriving DecidableEq, Repr

namespace ByteQueue

def toBytes (q : ByteQueue) : Bytes := Bytes.unwind q.pieces []

def ofBytes (bytes : Bytes) : ByteQueue := ⟨[bytes], bytes.length, by simp [Bytes.unwind]⟩

def empty : ByteQueue := ofBytes []

def push (q : ByteQueue) (bytes : Bytes) : ByteQueue :=
  ⟨bytes :: q.pieces, q.size + bytes.length, by
    rw [q.counted, Bytes.unwindCons, List.length_append]⟩

theorem sizeEq (q : ByteQueue) : q.size = q.toBytes.length := q.counted

theorem toBytesOfBytes (bytes : Bytes) : (ofBytes bytes).toBytes = bytes := by
  simp [toBytes, ofBytes, Bytes.unwind]

theorem toBytesPush (q : ByteQueue) (bytes : Bytes) : (q.push bytes).toBytes = q.toBytes ++ bytes :=
  Bytes.unwindCons bytes q.pieces

end ByteQueue

end RobotLink
