import RobotLink.Client
import RobotLink.Server

/-! A server and its peers on one host. What one end has written is there for the other end to
read as soon as the step that wrote it is over. A host without a route to itself refuses every
connection. -/
namespace RobotLink

inductive NetworkError where
  | unreachable
  deriving DecidableEq, Repr

def NetworkError.message : NetworkError → String
  | .unreachable => "Network is unreachable (os error 101)"

inductive Peer where
  | raw (received : Bytes) (closed : Bool)
  | client (client : Client)
  deriving DecidableEq, Repr

def Peer.takeIn (bytes : Bytes) (hungUp : Bool) : Peer → Peer
  | .raw received closed => .raw (received ++ bytes) (closed || hungUp)
  | .client c =>
    let stream := c.connection.stream
    let results := (if bytes.isEmpty then [] else [.data bytes]) ++ (if hungUp then [.endOfStream] else [])
    .client ⟨{ c.connection with stream := { stream with reads := stream.reads ++ results } }⟩

structure Loopback (State ClientState : Type) where
  reachable : Bool
  server : Server
  dispatcher : Dispatcher State
  clientLimit : UInt32
  clientDispatcher : Dispatcher ClientState
  backlog : List Arrival
  peers : List Peer

namespace Loopback
variable {State ClientState : Type}

def serverAddress : String := "127.0.0.1:40000"

def toServer (n : Loopback State ClientState) (peer : Nat) (results : List ReadResult) :
    Loopback State ClientState :=
  let extend (s : Stream) : Stream := { s with reads := s.reads ++ results }
  { n with
    server := { n.server with clients := n.server.clients.map fun (client, c) =>
      (client, if client.id = peer then { c with stream := extend c.stream } else c) }
    backlog := n.backlog.mapIdx fun i arrival =>
      if n.server.nextId + i = peer then { arrival with stream := extend arrival.stream } else arrival }

def putClient (n : Loopback State ClientState) (peer : Nat) (c : Client) : Loopback State ClientState :=
  let written := c.connection.stream.written
  let taken : Client := ⟨{ c.connection with stream := { c.connection.stream with written := [] } }⟩
  { n with peers := n.peers.set peer (.client taken) }.toServer peer
    (if written.isEmpty then [] else [.data written])

/-- Puts the server back after a step and hands what it has written to the peers. Those whose
connections it gave up in this step see the end of their streams. -/
def putServer (n : Loopback State ClientState) (s : Server) : Loopback State ClientState :=
  let peers := n.peers.mapIdx fun i peer =>
    match s.clients.find? (·.1.id = i) with
    | some (_, c) => peer.takeIn c.stream.written false
    | none =>
      let wasListed := n.server.clients.any (·.1.id = i) || n.server.nextId ≤ i
      peer.takeIn [] (i < s.nextId && wasListed)
  let clients := s.clients.map fun (client, c) => (client, { c with stream := { c.stream with written := [] } })
  { n with peers, server := { s with clients } }

def connect (n : Loopback State ClientState) : Except NetworkError (Nat × Loopback State ClientState) :=
  if n.reachable then
    .ok (n.peers.length, { n with
      peers := n.peers ++ [.raw [] false], backlog := n.backlog ++ [⟨.idle, "127.0.0.1"⟩] })
  else .error .unreachable

def connectClient (n : Loopback State ClientState) :
    Except NetworkError (Nat × Loopback State ClientState) := do
  let (peer, n) ← n.connect
  return (peer, n.putClient peer (Client.connect .idle serverAddress n.clientLimit).2)

def poll (n : Loopback State ClientState) : List ServerEvent × Loopback State ClientState :=
  let (events, server, dispatcher) := n.server.poll n.backlog n.dispatcher
  (events, { n with dispatcher, backlog := [] }.putServer server)

def flush (n : Loopback State ClientState) : Loopback State ClientState := n.putServer n.server.flush

def readRaw (n : Loopback State ClientState) (peer : Nat) :
    Option (Bytes × Bool × Loopback State ClientState) :=
  match n.peers[peer]? with
  | some (.raw received closed) =>
    some (received, closed, { n with peers := n.peers.set peer (.raw [] closed) })
  | _ => none

def client? (n : Loopback State ClientState) (peer : Nat) : Option Client :=
  match n.peers[peer]? with
  | some (.client c) => some c
  | _ => none

def pollClient (n : Loopback State ClientState) (peer : Nat) (c : Client) :
    ConnectionEvent × Loopback State ClientState :=
  let (event, c, clientDispatcher) := c.poll n.clientDispatcher
  (event, { n with clientDispatcher }.putClient peer c)

end Loopback

end RobotLink
