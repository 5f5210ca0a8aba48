import RobotLink.Dispatcher

/-! Scripts by name, kept in the byte order of their names. Clients upload, list, download and
remove them; every change of the list is broadcast, and requests to run one are refused. -/
namespace RobotLink

structure ScriptStore where
  entries : List (String × Bytes)
  deriving DecidableEq, Repr

namespace ScriptStore

def empty : ScriptStore := ⟨[]⟩

def names (s : ScriptStore) : List String := s.entries.map Prod.fst

def size (s : ScriptStore) : Nat := s.entries.length

def get? (s : ScriptStore) (name : String) : Option Bytes := s.entries.lookup name

def before (a b : String) : Bool := Bytes.ofText a < Bytes.ofText b

def insert (name : String) (script : Bytes) : List (String × Bytes) → List (String × Bytes)
  | [] => [(name, script)]
  | (other, kept) :: rest =>
    if name = other then (name, script) :: rest
    else if before name other then (name, script) :: (other, kept) :: rest
    else (other, kept) :: insert name script rest

def upload (s : ScriptStore) (name : String) (script : Bytes) : ScriptStore :=
  ⟨insert name script s.entries⟩

def remove (s : ScriptStore) (name : String) : ScriptStore :=
  ⟨s.entries.filter fun entry => entry.1 ≠ name⟩

def contains (s : ScriptStore) (name : String) : Bool := (s.get? name).isSome

def listing (s : ScriptStore) : Message := .luaScripts s.names

def executionUnavailable : String := "script execution unavailable"

def noScript (name : String) : String := "no script named '" ++ name ++ "'"

def refusal : List Message := [.luaText executionUnavailable, .scriptRunning false]

def apply (s : ScriptStore) : Message → ScriptStore
  | .uploadLua name script | .uploadRunLua name script => s.upload name script
  | .removeServerLua name => s.remove name
  | _ => s

def replies (s : ScriptStore) : Message → List Message
  | .getScripts => [s.listing]
  | .uploadRunLua .. | .runLua _ | .runServerLua _ => refusal
  | .getServerLua name =>
    match s.get? name with
    | some script => [.requestedScript script]
    | none => [.luaText (noScript name)]
  | _ => []

def announcements (s : ScriptStore) : Message → List Message
  | .uploadLua name script | .uploadRunLua name script => [(s.upload name script).listing]
  | .removeServerLua name => if s.contains name then [(s.remove name).listing] else []
  | _ => []

def queued (s : ScriptStore) (m : Message) : Outbox :=
  ⟨(s.replies m).map Message.encode, (s.announcements m).map Message.encode⟩

def handle : Handler ScriptStore := fun m s out => (out ++ s.queued m, s.apply m)

def opcodes : List Opcode :=
  [.getScripts, .uploadLua, .uploadRunLua, .runLua, .runServerLua, .removeServerLua, .getServerLua]

def install {State : Type} (part : State → ScriptStore) (replace : ScriptStore → State → State)
    (d : Dispatcher State) : Dispatcher State :=
  opcodes.foldl (fun d op => d.register op (handle.within part replace)) d

end ScriptStore

end RobotLink
