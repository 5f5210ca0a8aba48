import RobotLink.Decimal.Shortest
import RobotLink.Message
import RobotLink.Text.Quoted

/-! One line for each message received: console text as it is, numbers behind the name of
their opcode, events as calls, and all else by its constructor and fields. -/
namespace RobotLink

def boolName (b : Bool) : String := if b then "true" else "false"

def bracketed (items : List String) : String := "[" ++ String.intercalate ", " items ++ "]"

def LuaArg.describe : LuaArg → String
  | .bool b => boolName b
  | .float bits => Decimal.shortest bits
  | .text s => Text.quoted s

namespace Message

def describeBytes (bytes : Bytes) : String := bracketed (bytes.map fun b => Text.decimal b.toNat)

def tagged (name field : String) : String := name ++ "(" ++ field ++ ")"

def record (name first firstValue second secondValue : String) : String :=
  name ++ " \x7b " ++ first ++ ": " ++ firstValue ++ ", " ++ second ++ ": " ++ secondValue ++ " \x7d"

def describe (m : Message) : String :=
  match m with
  | .rawSerial s => s
  | .byte op value => op.name ++ " " ++ Text.decimal value.toNat
  | .word op value => op.name ++ " " ++ Text.decimal value.toNat
  | .luaScripts names => "scripts: " ++ String.intercalate ", " names
  | .requestedScript script => "script (" ++ Text.decimal script.length ++ " bytes)"
  | .scriptRunning running => "script running: " ++ boolName running
  | .luaText s => "lua: " ++ s
  | .luaMsg key args => tagged key (String.intercalate ", " (args.map LuaArg.describe))
  | .getScripts => m.kind
  | .command s | .runServerLua s | .removeServerLua s | .getServerLua s => tagged m.kind (Text.quoted s)
  | .runLua script => tagged m.kind (describeBytes script)
  | .uploadLua name script | .uploadRunLua name script =>
    record m.kind "name" (Text.quoted name) "script" (describeBytes script)
  | .luaCommand name args =>
    record m.kind "command" (Text.quoted name) "args" (bracketed (args.map Text.quoted))

end Message

end RobotLink
