import RobotLink.Clock
import RobotLink.CommandLine
import RobotLink.Frame
import RobotLink.Server
import RobotLink.Text.Number

/-! The settings of the two commands, their defaults, and the options that change them. -/
namespace RobotLink
open CommandLine (ArgumentError Switch)

structure ServeSettings where
  port : UInt16
  bind : String
  serial : Option String
  simulate : Bool
  clockSpeed : UInt64
  cpuUsage : CpuUsage
  pollMillis : UInt64
  loadState : Option String
  saveState : Option String
  maxFrame : UInt32
  debug : Bool
  deriving DecidableEq, Repr

structure ConsoleSettings where
  host : String
  port : UInt16
  debug : Bool
  deriving DecidableEq, Repr

namespace Settings
variable {Settings : Type}

def flag (name : String) (set : Settings → Settings) : Switch Settings := ⟨name, .flag set⟩

def text (name : String) (set : String → Settings → Settings) : Switch Settings :=
  ⟨name, .value fun value s => .ok (set value s)⟩

def path (name : String) (set : String → Settings → Settings) : Switch Settings :=
  ⟨name, .value fun value s => if value.isEmpty then .error .invalidValue else .ok (set value s)⟩

def read {α : Type} (name : String) (reader : String → Option α) (set : α → Settings → Settings) :
    Switch Settings :=
  ⟨name, .value fun value s =>
    match reader value with
    | some a => .ok (set a s)
    | none => .error .valueValidation⟩

def u16? (s : String) : Option UInt16 := (Text.signed? UInt16.size s).map Nat.toUInt16
def u32? (s : String) : Option UInt32 := (Text.signed? UInt32.size s).map Nat.toUInt32
def u64? (s : String) : Option UInt64 := (Text.natural? UInt64.size s).map Nat.toUInt64

end Settings

open Settings

namespace ServeSettings

def default : ServeSettings :=
  { port := Server.defaultPort, bind := "0.0.0.0", serial := none, simulate := false
    clockSpeed := Clock.boardSpeed, cpuUsage := .default, pollMillis := 5, loadState := none
    saveState := none, maxFrame := Frame.defaultLimit, debug := false }

def switches : List (Switch ServeSettings) :=
  [read "port" u16? fun port s => { s with port },
    text "bind" fun bind s => { s with bind },
    path "serial" fun serial s => { s with serial },
    flag "simulate" fun s => { s with simulate := true },
    read "clock-speed" u64? fun clockSpeed s => { s with clockSpeed },
    read "cpu-usage" (fun s => (CpuUsage.parse s).toOption) fun cpuUsage s => { s with cpuUsage },
    read "poll-ms" u64? fun pollMillis s => { s with pollMillis },
    path "load-state" fun file s => { s with loadState := file },
    path "save-state" fun file s => { s with saveState := file },
    read "max-frame" u32? fun maxFrame s => { s with maxFrame },
    flag "debug" fun s => { s with debug := true }]

def parse (words : List String) : Except ArgumentError ServeSettings :=
  CommandLine.parse switches default words

end ServeSettings

namespace ConsoleSettings

def default : ConsoleSettings := ⟨"127.0.0.1", Server.defaultPort, false⟩

def switches : List (Switch ConsoleSettings) :=
  [text "host" fun host s => { s with host },
    read "port" u16? fun port s => { s with port },
    flag "debug" fun s => { s with debug := true }]

def parse (words : List String) : Except ArgumentError ConsoleSettings :=
  CommandLine.parse switches default words

end ConsoleSettings

end RobotLink
