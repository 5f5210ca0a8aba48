import RobotLink.Reassembler

/-! A framed connection over a byte stream whose reads and writes may do part of the work, block
or fail. The stream is what it will answer, in order; a connection that is lost has no cursor
and nothing to send, and keeps the first reason. -/
namespace RobotLink

inductive ReadResult where
  | data (bytes : Bytes)
  | endOfStream
  | wouldBlock
  | interrupted
  | failed (message : String)
  deriving DecidableEq, Repr

inductive WriteResult where
  | accept (count : Nat)
  | wouldBlock
  | interrupted
  | failed (message : String)
  deriving DecidableEq, Repr

inductive FlushResult where
  | done
  | wouldBlock
  | interrupted
  | failed (message : String)
  deriving DecidableEq, Repr

inductive IoError where
  | writeZero
  | interrupted
  | reset (message : String)
  deriving DecidableEq, Repr

def IoError.name : IoError → String
  | .writeZero => "WriteZero"
  | .interrupted => "Interrupted"
  | .reset _ => "ConnectionReset"

def IoError.message : IoError → String
  | .writeZero => "socket accepted no data"
  | .interrupted => "interrupted"
  | .reset message => message

/-- The answers to come. When there are none, reads block, a write takes all it is offered, and
bytes are passed on. -/
structure Stream where
  reads : List ReadResult
  writes : List WriteResult
  flushes : List FlushResult
  written : Bytes
  deriving DecidableEq, Repr

namespace Stream

def idle : Stream := ⟨[], [], [], []⟩

def readChunk : Nat := 4096

def weight : ReadResult → Nat
  | .data bytes => bytes.length + 1
  | _ => 1

def readable : List ReadResult → Nat
  | [] => 0
  | result :: reads => weight result + readable reads

def keep : Bytes → List ReadResult → List ReadResult
  | [], reads => reads
  | b :: rest, reads => .data (b :: rest) :: reads

def read : List ReadResult → ReadResult × List ReadResult
  | [] => (.wouldBlock, [])
  | .data [] :: reads => (.endOfStream, reads)
  | .data bytes :: reads => (.data (bytes.take readChunk), keep (bytes.drop readChunk) reads)
  | other :: reads => (other, reads)

theorem readableKeep (bytes : Bytes) (reads : List ReadResult) :
    readable (keep bytes reads) ≤ bytes.length + 1 + readable reads := by
  cases bytes <;> simp [keep, readable, weight]

theorem readableRead {reads later : List ReadResult} {result : ReadResult}
    (h : read reads = (result, later)) (more : result ≠ .wouldBlock) :
    readable later < readable reads := by
  unfold read at h
  split at h
  next => cases h; exact absurd rfl more
  next => cases h; simp [readable, weight]
  next bytes reads nonempty =>
    cases h
    have bound := readableKeep (bytes.drop readChunk) reads
    have positive : 0 < bytes.length := List.length_pos_iff.2 fun nil => nonempty (by rw [nil])
    simp only [readable, weight, List.length_drop] at bound ⊢
    have chunk : readChunk = 4096 := rfl
    omega
  next => cases h; cases result <;> simp [readable, weight]

def write (s : Stream) (pending : Bytes) : Stream × Bytes × Option IoError :=
  let (taken, writes, left, e) := go s.writes pending
  ({ s with writes, written := s.written ++ taken }, left, e)
where
  go : List WriteResult → Bytes → Bytes × List WriteResult × Bytes × Option IoError
    | writes, [] => ([], writes, [], none)
    | [], pending => (pending, [], [], none)
    | .accept count :: writes, b :: rest =>
      if count = 0 then ([], writes, b :: rest, some .writeZero)
      else
        let (taken, writes, left, e) := go writes ((b :: rest).drop count)
        ((b :: rest).take count ++ taken, writes, left, e)
    | .wouldBlock :: writes, b :: rest => ([], writes, b :: rest, none)
    | .interrupted :: writes, b :: rest => go writes (b :: rest)
    | .failed message :: writes, b :: rest => ([], writes, b :: rest, some (.reset message))

def flush (s : Stream) : Stream × Option IoError :=
  match s.flushes with
  | [] => (s, none)
  | .done :: flushes | .wouldBlock :: flushes => ({ s with flushes }, none)
  | .interrupted :: flushes => ({ s with flushes }, some .interrupted)
  | .failed message :: flushes => ({ s with flushes }, some (.reset message))

end Stream

structure Connection where
  stream : Stream
  peer : String
  cursor : Option Reassembler
  pending : ByteQueue
  lost : Option String
  deriving DecidableEq, Repr

inductive ConnectionEvent where
  | idle
  | data (report : Report)
  | lost (reason : String)
  deriving DecidableEq, Repr

namespace Connection

def fresh (stream : Stream) (peer : String) (limit : UInt32) : Connection :=
  ⟨stream, peer, some (.fresh limit), .empty, none⟩

def isOpen (c : Connection) : Bool := c.cursor.isSome

def queue (c : Connection) (bytes : Bytes) : Connection :=
  if c.isOpen then { c with pending := c.pending.push bytes } else c

def send (c : Connection) (m : Message) : Connection := c.queue m.encode

def flush (c : Connection) : Option IoError × Connection :=
  let (stream, left, e) := c.stream.write c.pending.toBytes
  let c := { c with stream, pending := .ofBytes left }
  match e with
  | some e => (some e, c)
  | none =>
    let (stream, e) := stream.flush
    (e, { c with stream })

def close (c : Connection) (reason : String) : Connection :=
  if c.isOpen then { c with cursor := none, pending := .empty, lost := some reason }
  else { c with pending := .empty }

structure Received (State : Type) where
  lost : Option String
  report : Report
  reads : List ReadResult
  cursor : Reassembler
  outbox : Outbox
  dispatcher : Dispatcher State

def receive {State : Type} (reads : List ReadResult) (cursor : Reassembler) (d : Dispatcher State) (out : Outbox) :
    Received State :=
  match h : Stream.read reads with
  | (.wouldBlock, later) => ⟨none, .none, later, cursor, out, d⟩
  | (.endOfStream, later) => ⟨some "closed by peer", .none, later, cursor, out, d⟩
  | (.failed message, later) => ⟨some message, .none, later, cursor, out, d⟩
  | (.interrupted, later) =>
    have := Stream.readableRead h (by simp)
    receive later cursor d out
  | (.data bytes, later) =>
    have := Stream.readableRead h (by simp)
    match cursor.feed bytes d out with
    | (.ok report, cursor, out, d) =>
      let r := receive later cursor d out
      { r with report := report ++ r.report }
    | (.error e, cursor, out, d) => ⟨some e.message, .none, later, cursor, out, d⟩
termination_by Stream.readable reads

/-- Reads everything available. A connection lost before answers with its first reason. -/
def poll {State : Type} (c : Connection) (d : Dispatcher State) (out : Outbox) :
    ConnectionEvent × Connection × Outbox × Dispatcher State :=
  match c.cursor with
  | none => (.lost (c.lost.getD "connection closed"), c, out, d)
  | some cursor =>
    let r := receive c.stream.reads cursor d out
    let c := { c with stream := { c.stream with reads := r.reads }, cursor := some r.cursor }
    match r.lost with
    | some reason => (.lost reason, c.close reason, r.outbox, r.dispatcher)
    | none =>
      (if r.report.frames = 0 then .idle else .data r.report, c, r.outbox, r.dispatcher)

end Connection

end RobotLink
