import RobotLink.Payload

/-! Frames on the wire: a 32-bit length of opcode and payload, the opcode byte, the payload. -/
namespace RobotLink

/-- The opcode stays a raw byte, so that a frame of no known kind can still be cut. -/
structure Frame where
  opcode : UInt8
  payload : Bytes
  deriving DecidableEq, Repr

namespace Frame

def prefixLength : Nat := 4

def defaultLimit : UInt32 := 16777216

def bodyLength (f : Frame) : Nat := 1 + f.payload.length

def encode (f : Frame) : Bytes := Payload.putCount f.bodyLength ++ f.opcode :: f.payload

def Fits (f : Frame) : Prop := f.bodyLength < UInt32.size
instance (f : Frame) : Decidable f.Fits := by unfold Fits; infer_instance

def put (f : Frame) (value : Payload.Value) : Frame := { f with payload := f.payload ++ value.encode }

def compose (opcode : UInt8) (values : List Payload.Value) : Frame :=
  values.foldl put ⟨opcode, []⟩

def bodyLengths (opcode : UInt8) (values : List Payload.Value) : List Nat :=
  go ⟨opcode, []⟩ values
where
  go (f : Frame) : List Payload.Value → List Nat
    | [] => [f.bodyLength]
    | value :: rest => f.bodyLength :: go (f.put value) rest

end Frame

end RobotLink
