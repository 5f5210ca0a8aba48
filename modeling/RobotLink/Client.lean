import RobotLink.Connection

/-! The client side of a link: one connection, which asks for the list of scripts as soon as it
is made. What handlers queue, broadcasts included, goes to the server. -/
namespace RobotLink

structure Client where
  connection : Connection
  deriving DecidableEq, Repr

namespace Client

def connect (stream : Stream) (server : String) (limit : UInt32) : Option IoError × Client :=
  let (e, c) := ((Connection.fresh stream server limit).send .getScripts).flush
  (e, ⟨c⟩)

def isOpen (c : Client) : Bool := c.connection.isOpen

def peer (c : Client) : String := c.connection.peer

def send (c : Client) (m : Message) : Option IoError × Client :=
  let (e, connection) := (c.connection.send m).flush
  (e, ⟨connection⟩)

def poll {State : Type} (c : Client) (d : Dispatcher State) :
    ConnectionEvent × Client × Dispatcher State :=
  match c.connection.poll d .empty with
  | (.lost reason, connection, _, d) => (.lost reason, ⟨connection⟩, d)
  | (event, connection, out, d) =>
    match ((out.replies ++ out.broadcasts).foldl Connection.queue connection).flush with
    | (none, connection) => (event, ⟨connection⟩, d)
    | (some e, connection) => (.lost e.message, ⟨connection.close e.message⟩, d)

def close (c : Client) : Client := ⟨c.connection.close "closed locally"⟩

end Client

end RobotLink
