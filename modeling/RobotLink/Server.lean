import RobotLink.Connection

/-! A server of many connections. Each is polled in the order of its arrival; replies go to the
client whose frame produced them, broadcasts to every client once all of them have been read.
Ids count up from zero and are never given twice. -/
namespace RobotLink

structure ClientId where
  id : Nat
  deriving DecidableEq, Repr

inductive ServerEvent where
  | connected (client : ClientId) (peer : String)
  | disconnected (client : ClientId) (reason : String)
  deriving DecidableEq, Repr

structure Arrival where
  stream : Stream
  peer : String
  deriving DecidableEq, Repr

structure Server where
  clients : List (ClientId × Connection)
  limit : UInt32
  nextId : Nat
  accepted : Nat
  deriving DecidableEq, Repr

namespace Server

def defaultPort : UInt16 := 40000

def fresh (limit : UInt32) : Server := ⟨[], limit, 0, 0⟩

def clientIds (s : Server) : List ClientId := s.clients.map Prod.fst

def accept : List Arrival → Server → List ServerEvent × Server
  | [], s => ([], s)
  | arrival :: rest, s =>
    let client : ClientId := ⟨s.nextId⟩
    let connection := Connection.fresh arrival.stream arrival.peer s.limit
    let (events, s) := accept rest { s with
      clients := s.clients ++ [(client, connection)], nextId := s.nextId + 1, accepted := s.accepted + 1 }
    (.connected client arrival.peer :: events, s)

/-- Polls connections one after the other: each with its own replies queued, and all broadcasts
in the order of the clients. -/
def pollClients {State : Type} : List (ClientId × Connection) → Dispatcher State →
    List (ClientId × Connection) × List Bytes × Dispatcher State
  | [], d => ([], [], d)
  | (client, connection) :: rest, d =>
    let (_, connection, out, d) := connection.poll d .empty
    let answered := out.replies.foldl Connection.queue connection
    let (later, broadcasts, d) := pollClients rest d
    ((client, answered) :: later, out.broadcasts ++ broadcasts, d)

def broadcast (s : Server) (frame : Bytes) : Server :=
  { s with clients := s.clients.map fun (client, c) => (client, c.queue frame) }

def flushOne (c : Connection) : Connection :=
  if c.isOpen then
    match c.flush with
    | (none, c) => c
    | (some e, c) => c.close e.message
  else c

def flush (s : Server) : Server :=
  { s with clients := s.clients.map fun (client, c) => (client, flushOne c) }

def farewell? : ClientId × Connection → Option ServerEvent
  | (client, c) => if c.isOpen then none else some (.disconnected client (c.lost.getD "connection lost"))

def poll {State : Type} (s : Server) (arrivals : List Arrival) (d : Dispatcher State) :
    List ServerEvent × Server × Dispatcher State :=
  let (welcomes, s) := accept arrivals s
  let (clients, broadcasts, d) := pollClients s.clients d
  let s := (broadcasts.foldl broadcast { s with clients }).flush
  (welcomes ++ s.clients.filterMap farewell?,
    { s with clients := s.clients.filter fun entry => entry.2.isOpen }, d)

def sendTo (s : Server) (client : ClientId) (frame : Bytes) : Bool × Server :=
  if s.clients.any fun (other, c) => other = client && c.isOpen then
    (true, { s with clients := s.clients.map fun (other, c) =>
      (other, if other = client then c.queue frame else c) })
  else (false, s)

end Server

end RobotLink
