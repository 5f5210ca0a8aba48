import RobotLink.Bytes
import RobotLink.Text.Digits

/-! The values of a payload: how each is written, and a reader for each that never looks past
the payload. Numbers are little-endian; texts, byte strings and lists carry a 32-bit count. -/
namespace RobotLink

inductive LuaArg where
  | bool (value : Bool)
  | float (bits : UInt64)
  | text (value : String)
  deriving DecidableEq, Repr

namespace Payload

def putBool (b : Bool) : Bytes := [if b then 1 else 0]
def putU8 (n : UInt8) : Bytes := [n]
def putU16 (n : UInt16) : Bytes := Bytes.ofNat 2 n.toNat
def putU32 (n : UInt32) : Bytes := Bytes.ofNat 4 n.toNat
def putFloat (bits : UInt64) : Bytes := Bytes.ofNat 8 bits.toNat

def putCount (n : Nat) : Bytes := Bytes.ofNat 4 n

def putBlob (bytes : Bytes) : Bytes := putCount bytes.length ++ bytes
def putText (s : String) : Bytes := putBlob (Bytes.ofText s)
def putList {α : Type} (put : α → Bytes) (items : List α) : Bytes :=
  putCount items.length ++ items.flatMap put

def putArg : LuaArg → Bytes
  | .bool b => 0 :: putBool b
  | .float bits => 1 :: putFloat bits
  | .text s => 2 :: putText s

inductive Value where
  | bool (value : Bool)
  | u8 (value : UInt8)
  | u16 (value : UInt16)
  | u32 (value : UInt32)
  | float (bits : UInt64)
  | text (value : String)
  | texts (items : List String)
  | u8s (items : List UInt8)
  | u16s (items : List UInt16)
  | blob (bytes : Bytes)
  | arg (value : LuaArg)
  | args (items : List LuaArg)
  | raw (bytes : Bytes)
  deriving DecidableEq, Repr

def Value.encode : Value → Bytes
  | .bool b => putBool b
  | .u8 n => putU8 n
  | .u16 n => putU16 n
  | .u32 n => putU32 n
  | .float bits => putFloat bits
  | .text s => putText s
  | .texts items => putList putText items
  | .u8s items => putList putU8 items
  | .u16s items => putList putU16 items
  | .blob bytes => putBlob bytes
  | .arg a => putArg a
  | .args items => putList putArg items
  | .raw bytes => bytes

end Payload

inductive DecodeError where
  | unexpectedEnd (needed available : Nat)
  | invalidUtf8
  | invalidBool (byte : UInt8)
  | unknownArgTag (tag : UInt8)
  deriving DecidableEq, Repr

def DecodeError.name : DecodeError → String
  | .unexpectedEnd .. => "UnexpectedEnd"
  | .invalidUtf8 => "InvalidUtf8"
  | .invalidBool _ => "InvalidBool"
  | .unknownArgTag _ => "UnknownArgTag"

def DecodeError.message : DecodeError → String
  | .unexpectedEnd needed available =>
    "payload ended early: needed " ++ Text.decimal needed ++ " bytes, " ++ Text.decimal available ++ " left"
  | .invalidUtf8 => "invalid UTF-8 in string"
  | .invalidBool byte => "invalid bool byte 0x" ++ Text.upperHexByte byte
  | .unknownArgTag tag => "unknown argument tag " ++ Text.decimal tag.toNat

/-- A read takes bytes off the front; a failing one keeps what it took before it failed. -/
abbrev Read := ExceptT DecodeError (StateM Bytes)

namespace Read

def run {α : Type} (read : Read α) (payload : Bytes) : Except DecodeError α × Bytes := read payload

def ensure (needed : Nat) : Read Unit := do
  let rest ← get
  if rest.length < needed then throw (.unexpectedEnd needed rest.length)

def take (n : Nat) : Read Bytes := do
  let rest ← get
  match Bytes.split? n rest with
  | some (head, tail) => set tail; return head
  | none => throw (.unexpectedEnd n rest.length)

def u8 : Read UInt8 := do return (Bytes.toNat (← take 1)).toUInt8
def u16 : Read UInt16 := do return (Bytes.toNat (← take 2)).toUInt16
def u32 : Read UInt32 := do return (Bytes.toNat (← take 4)).toUInt32
def float : Read UInt64 := do return (Bytes.toNat (← take 8)).toUInt64

def bool : Read Bool := do
  match ← u8 with
  | 0 => return false
  | 1 => return true
  | b => throw (.invalidBool b)

def blob : Read Bytes := do take (← u32).toNat

def text : Read String := do
  match Bytes.toText? (← blob) with
  | some s => return s
  | none => throw .invalidUtf8

def times {α : Type} (read : Read α) : Nat → Read (List α)
  | 0 => return []
  | n + 1 => do
    let head ← read
    let tail ← times read n
    return head :: tail

def texts : Read (List String) := do
  let count := (← u32).toNat
  ensure (count * 4)
  times text count

def arg : Read LuaArg := do
  match ← u8 with
  | 0 => return .bool (← bool)
  | 1 => return .float (← float)
  | 2 => return .text (← text)
  | tag => throw (.unknownArgTag tag)

def args : Read (List LuaArg) := do times arg (← u32).toNat

end Read

end RobotLink
