import RobotLink.Frame
import RobotLink.Opcode

/-! Messages, the frame of each, and the reading of a payload back into its message. What a
reader leaves unread behind the values of a message is left to the caller. -/
namespace RobotLink

inductive Message where
  | rawSerial (text : String)
  | byte (opcode : Opcode) (value : UInt8)
  | word (opcode : Opcode) (value : UInt16)
  | command (text : String)
  | getScripts
  | luaScripts (names : List String)
  | uploadLua (name : String) (script : Bytes)
  | runLua (script : Bytes)
  | uploadRunLua (name : String) (script : Bytes)
  | runServerLua (name : String)
  | removeServerLua (name : String)
  | getServerLua (name : String)
  | requestedScript (script : Bytes)
  | scriptRunning (running : Bool)
  | luaText (text : String)
  | luaMsg (key : String) (args : List LuaArg)
  | luaCommand (name : String) (args : List String)
  deriving DecidableEq, Repr

inductive DispatchError where
  | unknownOpcode (code : UInt8)
  | missingWidth (opcode : Opcode)
  | decode (cause : DecodeError)
  deriving DecidableEq, Repr

def DispatchError.name : DispatchError → String
  | .unknownOpcode _ => "UnknownOpcode"
  | .missingWidth _ => "MissingWidth"
  | .decode _ => "Decode"

def DispatchError.message : DispatchError → String
  | .unknownOpcode code => "unknown opcode 0x" ++ Text.upperHexByte code
  | .missingWidth op => "no width registered for simple opcode " ++ op.describe
  | .decode cause => "decode error: " ++ cause.message

namespace Message
open Payload (Value)

def opcode : Message → Opcode
  | .rawSerial _ => .rawSerial
  | .byte op _ | .word op _ => op
  | .command _ => .command
  | .getScripts => .getScripts
  | .luaScripts _ => .luaScripts
  | .uploadLua .. => .uploadLua
  | .runLua _ => .runLua
  | .uploadRunLua .. => .uploadRunLua
  | .runServerLua _ => .runServerLua
  | .removeServerLua _ => .removeServerLua
  | .getServerLua _ => .getServerLua
  | .requestedScript _ => .requestedScript
  | .scriptRunning _ => .scriptRunning
  | .luaText _ => .luaText
  | .luaMsg .. => .luaMsg
  | .luaCommand .. => .luaCommand

def kind : Message → String
  | .byte .. => "Byte"
  | .word .. => "Word"
  | structured => structured.opcode.name

def simpleValue? : Message → Option UInt16
  | .byte _ value => some value.toUInt16
  | .word _ value => some value
  | _ => none

def values : Message → List Value
  | .rawSerial s | .command s | .runServerLua s | .removeServerLua s | .getServerLua s | .luaText s =>
    [.text s]
  | .byte _ value => [.u8 value]
  | .word _ value => [.u16 value]
  | .getScripts => []
  | .luaScripts names => [.texts names]
  | .uploadLua name script | .uploadRunLua name script => [.text name, .blob script]
  | .runLua script | .requestedScript script => [.blob script]
  | .scriptRunning running => [.bool running]
  | .luaMsg key args => [.text key, .args args]
  | .luaCommand name args => [.text name, .texts args]

def payload (m : Message) : Bytes := m.values.flatMap Value.encode

def frame (m : Message) : Frame := ⟨m.opcode.code, m.payload⟩

def encode (m : Message) : Bytes := m.frame.encode

/-- Reads the payload of a message of this opcode. The width of a simple value comes from the
table; the shape of every other payload is fixed by its opcode. -/
def read (widths : WidthTable) : Opcode → ExceptT DispatchError (StateM Bytes) Message
  | .rawSerial => .adapt .decode do return .rawSerial (← Read.text)
  | .command => .adapt .decode do return .command (← Read.text)
  | .getScripts => return .getScripts
  | .luaScripts => .adapt .decode do return .luaScripts (← Read.texts)
  | .uploadLua => .adapt .decode do return .uploadLua (← Read.text) (← Read.blob)
  | .runLua => .adapt .decode do return .runLua (← Read.blob)
  | .uploadRunLua => .adapt .decode do return .uploadRunLua (← Read.text) (← Read.blob)
  | .runServerLua => .adapt .decode do return .runServerLua (← Read.text)
  | .removeServerLua => .adapt .decode do return .removeServerLua (← Read.text)
  | .getServerLua => .adapt .decode do return .getServerLua (← Read.text)
  | .requestedScript => .adapt .decode do return .requestedScript (← Read.blob)
  | .scriptRunning => .adapt .decode do return .scriptRunning (← Read.bool)
  | .luaText => .adapt .decode do return .luaText (← Read.text)
  | .luaMsg => .adapt .decode do return .luaMsg (← Read.text) (← Read.args)
  | .luaCommand => .adapt .decode do return .luaCommand (← Read.text) (← Read.texts)
  | simple =>
    match widths.get? simple with
    | some .byte => .adapt .decode do return .byte simple (← Read.u8)
    | some .word => .adapt .decode do return .word simple (← Read.u16)
    | none => throw (.missingWidth simple)

def decode (widths : WidthTable) (op : Opcode) (payload : Bytes) :
    Except DispatchError Message × Bytes :=
  read widths op payload

def WellFormed (widths : WidthTable) : Message → Prop
  | .byte op _ => op.isSimple ∧ widths.get? op = some .byte
  | .word op _ => op.isSimple ∧ widths.get? op = some .word
  | _ => True

end Message

end RobotLink
