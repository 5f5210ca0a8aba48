import RobotLink.Text.Digits

/-! The message kinds. Codes 0x01 to 0x15 are simple: one number whose width a table gives.
All others carry structured payload. -/
namespace RobotLink

inductive Opcode where
  | rawSerial
  | stateSensors
  | motorDirections
  | baseLeds
  | m32Leds
  | battery
  | lightLeft
  | lightRight
  | motorSpeedLeft
  | motorSpeedRight
  | motorDestSpeedLeft
  | motorDestSpeedRight
  | motorDistLeft
  | motorDistRight
  | motorDestDistLeft
  | motorDestDistRight
  | motorCurrentLeft
  | motorCurrentRight
  | acsPower
  | mic
  | lastRc5
  | sharpIr
  | command
  | getScripts
  | luaScripts
  | uploadLua
  | runLua
  | uploadRunLua
  | runServerLua
  | removeServerLua
  | getServerLua
  | requestedScript
  | scriptRunning
  | luaText
  | luaMsg
  | luaCommand
  deriving DecidableEq, Repr

inductive DataWidth where
  | byte
  | word
  deriving DecidableEq, Repr

namespace DataWidth

def length : DataWidth → Nat
  | .byte => 1
  | .word => 2

def name : DataWidth → String
  | .byte => "Byte"
  | .word => "Word"

end DataWidth

namespace Opcode

def all : List Opcode :=
  [.rawSerial, .stateSensors, .motorDirections, .baseLeds, .m32Leds, .battery, .lightLeft,
    .lightRight, .motorSpeedLeft, .motorSpeedRight, .motorDestSpeedLeft, .motorDestSpeedRight,
    .motorDistLeft, .motorDistRight, .motorDestDistLeft, .motorDestDistRight, .motorCurrentLeft,
    .motorCurrentRight, .acsPower, .mic, .lastRc5, .sharpIr, .command, .getScripts, .luaScripts,
    .uploadLua, .runLua, .uploadRunLua, .runServerLua, .removeServerLua, .getServerLua,
    .requestedScript, .scriptRunning, .luaText, .luaMsg, .luaCommand]

def code : Opcode → UInt8
  | .rawSerial => 0x00
  | .stateSensors => 0x01
  | .motorDirections => 0x02
  | .baseLeds => 0x03
  | .m32Leds => 0x04
  | .battery => 0x05
  | .lightLeft => 0x06
  | .lightRight => 0x07
  | .motorSpeedLeft => 0x08
  | .motorSpeedRight => 0x09
  | .motorDestSpeedLeft => 0x0A
  | .motorDestSpeedRight => 0x0B
  | .motorDistLeft => 0x0C
  | .motorDistRight => 0x0D
  | .motorDestDistLeft => 0x0E
  | .motorDestDistRight => 0x0F
  | .motorCurrentLeft => 0x10
  | .motorCurrentRight => 0x11
  | .acsPower => 0x12
  | .mic => 0x13
  | .lastRc5 => 0x14
  | .sharpIr => 0x15
  | .command => 0x20
  | .getScripts => 0x21
  | .luaScripts => 0x22
  | .uploadLua => 0x23
  | .runLua => 0x24
  | .uploadRunLua => 0x25
  | .runServerLua => 0x26
  | .removeServerLua => 0x27
  | .getServerLua => 0x28
  | .requestedScript => 0x29
  | .scriptRunning => 0x2A
  | .luaText => 0x2B
  | .luaMsg => 0x2C
  | .luaCommand => 0x2D

def ofCode? (b : UInt8) : Option Opcode := all.find? (·.code = b)

theorem ofCodeCode (op : Opcode) : ofCode? op.code = some op := by cases op <;> decide

theorem codeOfCode {b : UInt8} {op : Opcode} (h : ofCode? b = some op) : op.code = b := by
  simpa using List.find?_some h

def name : Opcode → String
  | .rawSerial => "RawSerial"
  | .stateSensors => "StateSensors"
  | .motorDirections => "MotorDirections"
  | .baseLeds => "BaseLeds"
  | .m32Leds => "M32Leds"
  | .battery => "Battery"
  | .lightLeft => "LightLeft"
  | .lightRight => "LightRight"
  | .motorSpeedLeft => "MotorSpeedLeft"
  | .motorSpeedRight => "MotorSpeedRight"
  | .motorDestSpeedLeft => "MotorDestSpeedLeft"
  | .motorDestSpeedRight => "MotorDestSpeedRight"
  | .motorDistLeft => "MotorDistLeft"
  | .motorDistRight => "MotorDistRight"
  | .motorDestDistLeft => "MotorDestDistLeft"
  | .motorDestDistRight => "MotorDestDistRight"
  | .motorCurrentLeft => "MotorCurrentLeft"
  | .motorCurrentRight => "MotorCurrentRight"
  | .acsPower => "AcsPower"
  | .mic => "Mic"
  | .lastRc5 => "LastRc5"
  | .sharpIr => "SharpIr"
  | .command => "Command"
  | .getScripts => "GetScripts"
  | .luaScripts => "LuaScripts"
  | .uploadLua => "UploadLua"
  | .runLua => "RunLua"
  | .uploadRunLua => "UploadRunLua"
  | .runServerLua => "RunServerLua"
  | .removeServerLua => "RemoveServerLua"
  | .getServerLua => "GetServerLua"
  | .requestedScript => "RequestedScript"
  | .scriptRunning => "ScriptRunning"
  | .luaText => "LuaText"
  | .luaMsg => "LuaMsg"
  | .luaCommand => "LuaCommand"

def describe (op : Opcode) : String := op.name ++ "(0x" ++ Text.upperHexByte op.code ++ ")"

def isSimple (op : Opcode) : Bool := 0x01 ≤ op.code && op.code ≤ 0x15

def standardWidth? : Opcode → Option DataWidth
  | .stateSensors | .motorDirections | .baseLeds | .m32Leds | .motorSpeedLeft | .motorSpeedRight
  | .motorDestSpeedLeft | .motorDestSpeedRight | .acsPower | .sharpIr => some .byte
  | .battery | .lightLeft | .lightRight | .motorDistLeft | .motorDistRight | .motorDestDistLeft
  | .motorDestDistRight | .motorCurrentLeft | .motorCurrentRight | .mic | .lastRc5 => some .word
  | _ => none

end Opcode

structure WidthTable where
  get? : Opcode → Option DataWidth

namespace WidthTable

def empty : WidthTable := ⟨fun _ => none⟩

def standard : WidthTable := ⟨Opcode.standardWidth?⟩

def set (t : WidthTable) (op : Opcode) (width : DataWidth) : WidthTable :=
  ⟨fun other => if other = op then some width else t.get? other⟩

def remove (t : WidthTable) (op : Opcode) : WidthTable :=
  ⟨fun other => if other = op then none else t.get? other⟩

def size (t : WidthTable) : Nat := Opcode.all.countP fun op => (t.get? op).isSome

def isEmpty (t : WidthTable) : Bool := t.size = 0

end WidthTable

end RobotLink
