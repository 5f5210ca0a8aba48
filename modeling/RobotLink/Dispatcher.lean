import RobotLink.Message

/-! Routing of decoded messages to handlers. Handlers act on a shared state and on an outbox, in
which they queue frames and which they may look into and empty; those of the opcode run in order of
registration, then those of every opcode. A frame that does not decode reaches none of them. -/
namespace RobotLink

/-- Frames queued by handlers: for the peer whose frame is being handled, and for every peer. -/
structure Outbox where
  replies : List Bytes
  broadcasts : List Bytes
  deriving DecidableEq, Repr

namespace Outbox

def empty : Outbox := ⟨[], []⟩

def isEmpty (o : Outbox) : Bool := o.replies.isEmpty && o.broadcasts.isEmpty

def sendFrame (o : Outbox) (frame : Bytes) : Outbox := { o with replies := o.replies ++ [frame] }

def send (o : Outbox) (m : Message) : Outbox := o.sendFrame m.encode

def broadcast (o : Outbox) (m : Message) : Outbox := { o with broadcasts := o.broadcasts ++ [m.encode] }

def takeReplies (o : Outbox) : List Bytes × Outbox := (o.replies, { o with replies := [] })

def takeBroadcasts (o : Outbox) : List Bytes × Outbox := (o.broadcasts, { o with broadcasts := [] })

instance : Append Outbox := ⟨fun a b => ⟨a.replies ++ b.replies, a.broadcasts ++ b.broadcasts⟩⟩

end Outbox

abbrev Handler (State : Type) := Message → State → Outbox → Outbox × State

def Handler.within {Part State : Type} (part : State → Part) (replace : Part → State → State)
    (handler : Handler Part) : Handler State := fun m s out =>
  let (out, changed) := handler m (part s) out
  (out, replace changed s)

structure Dispatcher (State : Type) where
  widths : WidthTable
  handlers : List (Opcode × Handler State)
  catchAll : List (Handler State)
  dispatched : Nat
  state : State

namespace Dispatcher
variable {State : Type}

def fresh (widths : WidthTable) (state : State) : Dispatcher State := ⟨widths, [], [], 0, state⟩

def register (d : Dispatcher State) (op : Opcode) (handler : Handler State) : Dispatcher State :=
  { d with handlers := d.handlers ++ [(op, handler)] }

def registerCatchAll (d : Dispatcher State) (handler : Handler State) : Dispatcher State :=
  { d with catchAll := d.catchAll ++ [handler] }

def handlersOf (d : Dispatcher State) (op : Opcode) : List (Handler State) :=
  d.handlers.filterMap fun (other, handler) => if other = op then some handler else none

def route (d : Dispatcher State) (op : Opcode) : List (Handler State) := d.handlersOf op ++ d.catchAll

def call (m : Message) : List (Handler State) → State → Outbox → Outbox × State
  | [], s, out => (out, s)
  | handler :: rest, s, out =>
    let (out, s) := handler m s out
    call m rest s out

def dispatch (d : Dispatcher State) (frame : Frame) (out : Outbox) :
    Except DispatchError Nat × Outbox × Dispatcher State :=
  match Opcode.ofCode? frame.opcode with
  | none => (.error (.unknownOpcode frame.opcode), out, d)
  | some op =>
    match Message.decode d.widths op frame.payload with
    | (.error e, _) => (.error e, out, d)
    | (.ok m, rest) =>
      let (out, state) := call m (d.route op) d.state out
      (.ok (frame.payload.length - rest.length), out, { d with dispatched := d.dispatched + 1, state })

end Dispatcher

end RobotLink
