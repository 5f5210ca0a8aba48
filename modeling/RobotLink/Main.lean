import RobotLink.Message.Describe
import RobotLink.Robot
import RobotLink.SerialText
import RobotLink.Settings

/-! The command line, with standard input and output in the place of a socket. A server takes
console commands, one a line, and writes the frames that tell of its simulated robot; a console
takes frames and prints one line for each message. -/
namespace RobotLink.Main

inductive Command where
  | serve (settings : ServeSettings)
  | console (settings : ConsoleSettings)
  deriving DecidableEq, Repr

def Command.parse : List String → Except CommandLine.ArgumentError Command
  | "serve" :: words => (ServeSettings.parse words).map .serve
  | "console" :: words => (ConsoleSettings.parse words).map .console
  | _ => .error .unknownArgument

def usage : String := "usage: serve [OPTIONS] | console [OPTIONS]"

def unattached (command : String) : String := "no robot attached: " ++ command

def obey (command : String) : Option Robot → List Message × Option Robot
  | none => ([.rawSerial (unattached command)], none)
  | some r =>
    let (reply, r) := (r.command command).getD (unattached command, r)
    let (changes, r) := r.changed
    (.rawSerial reply :: changes, some r)

def listener : Handler (List String) := fun m lines out => (out, m.describe :: lines)

def fail (message : String) : IO UInt32 := do
  IO.eprintln ("Error: " ++ message)
  return 1

def tell (output : IO.FS.Stream) (messages : List Message) : IO Unit := do
  for m in messages do output.write m.encode.toByteArray
  output.flush

partial def serveLines (input output : IO.FS.Stream) (robot : Option Robot) : IO UInt32 := do
  let line ← input.getLine
  let awake ← robot.mapM fun r => do return r.wake (← IO.monoNanosNow)
  match awake.sequence, Text.words line with
  | .error fault, _ => fail fault.message
  | .ok _, ["quit"] => return 0
  | .ok robot, [] => if line.isEmpty then return 0 else serveLines input output robot
  | .ok robot, _ =>
    let (messages, robot) := obey (line.dropEndWhile (· = '\n')).toString robot
    tell output messages
    serveLines input output robot

def serve (s : ServeSettings) (input output : IO.FS.Stream) : IO UInt32 := do
  if s.serial.isSome || s.loadState.isSome || s.saveState.isSome then
    fail "devices and files are not available here"
  else if !s.simulate then serveLines input output none
  else
    match Robot.start s.clockSpeed s.cpuUsage none with
    | .error e => fail e.message
    | .ok r =>
      let (values, r) := r.changed
      tell output values
      serveLines input output (some r)

partial def printFrames (input output : IO.FS.Stream) (r : Reassembler)
    (d : Dispatcher (List String)) : IO UInt32 := do
  let bytes ← input.read 4096
  let (result, r, _, d) := r.feed bytes.toList d .empty
  for line in d.state.reverse do output.putStrLn line
  output.flush
  match result with
  | .error e =>
    IO.eprintln ("Disconnected: " ++ e.message)
    return 0
  | .ok _ =>
    if bytes.isEmpty then
      IO.eprintln "Disconnected: closed by peer"
      return 0
    else printFrames input output r { d with state := [] }

def console (input output : IO.FS.Stream) : IO UInt32 :=
  printFrames input output (.fresh Frame.defaultLimit)
    ((Dispatcher.fresh .standard []).registerCatchAll listener)

end RobotLink.Main

def main (words : List String) : IO UInt32 := do
  let input ← IO.getStdin
  let output ← IO.getStdout
  match RobotLink.Main.Command.parse words with
  | .ok (.serve settings) => RobotLink.Main.serve settings input output
  | .ok (.console _) => RobotLink.Main.console input output
  | .error .displayHelp =>
    output.putStrLn RobotLink.Main.usage
    return 0
  | .error e =>
    IO.eprintln ("error: " ++ e.name ++ "\n" ++ RobotLink.Main.usage)
    return 2
