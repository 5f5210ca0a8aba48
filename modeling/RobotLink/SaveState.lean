import RobotLink.SaveState.Deflate
import RobotLink.SaveState.Layout

/-! The file of a saved clock: a magic number, a format version, and the compressed layout of
the snapshot. -/
namespace RobotLink

inductive SaveStateError where
  | missingFile
  | truncated
  | badMagic
  | version (found : UInt32)
  | decompress
  | layout (cause : LayoutError)
  deriving DecidableEq, Repr

namespace SaveState

def magic : Bytes := [0x52, 0x50, 0x36, 0x43]

def formatVersion : UInt32 := 1

def headerLength : Nat := 8

def header : Bytes := magic ++ Bytes.ofNat 4 formatVersion.toNat

end SaveState

def SaveStateError.name : SaveStateError → String
  | .missingFile => "Io"
  | .truncated => "Truncated"
  | .badMagic => "BadMagic"
  | .version _ => "Version"
  | .decompress => "Decompress"
  | .layout _ => "Codec"

def SaveStateError.message? : SaveStateError → Option String
  | .missingFile => some "I/O error: No such file or directory (os error 2)"
  | .truncated => some "file too small"
  | .badMagic => some "invalid save state file (bad magic)"
  | .version found =>
    some ("unsupported save state version " ++ Text.decimal found.toNat ++ " (expected "
      ++ Text.decimal SaveState.formatVersion.toNat ++ ")")
  | .decompress => none
  | .layout cause => some ("codec error: " ++ cause.message)

namespace SaveState

def encodeWith (compress : Bytes → Bytes) (s : ClockSnapshot) : Bytes := header ++ compress (Layout.put s)

def decodeWith (decompress : Bytes → Option Bytes) (file : Bytes) : Except SaveStateError ClockSnapshot :=
  match Bytes.split? headerLength file with
  | none => .error .truncated
  | some (head, body) =>
    let version := (Bytes.toNat (head.drop 4)).toUInt32
    if head.take 4 ≠ magic then .error .badMagic
    else if version ≠ formatVersion then .error (.version version)
    else
      match decompress body with
      | none => .error .decompress
      | some payload => (Layout.read payload).mapError .layout

def encode (s : ClockSnapshot) : Bytes := encodeWith Deflate.deflate s

def decode (file : Bytes) : Except SaveStateError ClockSnapshot := decodeWith Deflate.inflate file

def load (contents : Option Bytes) : Except SaveStateError ClockSnapshot :=
  match contents with
  | none => .error .missingFile
  | some file => decode file

end SaveState

end RobotLink
