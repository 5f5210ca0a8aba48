import RobotLink.Proofs.ReadRounds
import RobotLink.Proofs.ServerRounds

/-! One poll of a server, client by client. Each client has its turn with the dispatcher that the
clients before it left; then all are answered, and only then is anything written. -/
namespace RobotLink

def ConnectionEvent.reason? : ConnectionEvent → Option String
  | .idle | .data _ => none
  | .lost reason => some reason

namespace Connection
variable {State : Type} {c : Connection}

structure Sound (c : Connection) : Prop where
  lost : c.isOpen = c.lost.isNone
  silent : c.isOpen = false → c.pending.toBytes = []
  resting : c.Resting

theorem soundFresh (stream : Stream) (peer : String) (limit : UInt32) : (fresh stream peer limit).Sound := by
  refine ⟨rfl, nofun, fun r cursor => ?_⟩
  cases cursor
  exact Reassembler.idleFresh limit

theorem soundLost (stream : Stream) (peer reason : String) : Sound ⟨stream, peer, none, .empty, some reason⟩ :=
  ⟨rfl, fun _ => ByteQueue.toBytesOfBytes [], nofun⟩

theorem Sound.openFor (sound : c.Sound) (isOpen : c.isOpen) : c.lost = none := by
  rw [← Option.isNone_iff_eq_none, ← sound.lost, isOpen]

theorem Sound.closedFor (sound : c.Sound) (closed : c.isOpen = false) : ∃ reason, c.lost = some reason := by
  have same := sound.lost
  rw [closed] at same
  cases lost : c.lost with
  | some reason => exact ⟨reason, rfl⟩
  | none =>
    rw [lost] at same
    cases same

theorem Sound.polled (sound : c.Sound) (d : Dispatcher State) (out : Outbox) :
    (c.poll d out).2.1.Sound ∧ (c.poll d out).2.1.lost = c.lost.or (c.poll d out).1.reason? := by
  have step := pollEnds sound.resting d out
  generalize c.poll d out = after at step ⊢
  cases step with
  | gone gone =>
    have closed : c.isOpen = false := by rw [isOpen, gone]; rfl
    obtain ⟨reason, lost⟩ := sound.closedFor closed
    exact ⟨sound, by rw [lost]; rfl⟩
  | loses isOpen =>
    rw [sound.openFor isOpen]
    exact ⟨soundLost .., rfl⟩
  | stays cursor stays ahead idle stands =>
    have alive : c.lost = none := sound.openFor (by rw [isOpen, cursor]; rfl)
    refine ⟨⟨?_, fun closed => absurd closed.symm Bool.false_ne_true, fun r same => ?_⟩, ?_⟩
    · rw [alive]
      rfl
    · cases same
      exact idle
    · rw [alive]
      split <;> rfl

theorem Sound.sending (sound : c.Sound) (isOpen : c.isOpen) (stream : Stream) (pending : ByteQueue) :
    Sound { c with stream, pending } := by
  refine ⟨sound.lost, fun closed => ?_, sound.resting⟩
  have still : c.isOpen = false := closed
  rw [isOpen] at still
  cases still

theorem Sound.queued (sound : c.Sound) (frames : List Bytes) :
    (frames.foldl queue c).Sound ∧ (frames.foldl queue c).lost = c.lost := by
  cases isOpen : c.isOpen with
  | false =>
    rw [queueNone frames isOpen]
    exact ⟨sound, rfl⟩
  | true =>
    obtain ⟨pending, same, _⟩ := queueOpen frames isOpen
    rw [same]
    exact ⟨sound.sending isOpen c.stream pending, rfl⟩

def flushLoss (c : Connection) : Option String := if c.isOpen then c.flush.1.map IoError.message else none

theorem Sound.flushed (sound : c.Sound) :
    (Server.flushOne c).Sound ∧ (Server.flushOne c).lost = c.lost.or c.flushLoss := by
  cases isOpen : c.isOpen with
  | false =>
    have same : Server.flushOne c = c := if_neg (by simp [isOpen])
    have none : c.flushLoss = none := if_neg (by simp [isOpen])
    rw [same, none, Option.or_none]
    exact ⟨sound, rfl⟩
  | true =>
    have alive : c.lost = none := sound.openFor isOpen
    obtain ⟨stream, pending, only⟩ := c.flushOnly
    rw [Server.flushOne, flushLoss, if_pos isOpen, if_pos isOpen, alive]
    rcases flushed : c.flush with ⟨_ | e, after⟩ <;> rw [flushed] at only <;> cases only
    · exact ⟨sound.sending isOpen stream pending, alive⟩
    · have lost : close { c with stream, pending } e.message = ⟨stream, c.peer, none, .empty, some e.message⟩ :=
        if_pos isOpen
      simp only [lost]
      exact ⟨soundLost .., rfl⟩

end Connection

namespace Server
variable {State : Type}

structure Turn (State : Type) where
  client : ClientId
  connection : Connection
  dispatcher : Dispatcher State

def turns : List (ClientId × Connection) → Dispatcher State → List (Turn State)
  | [], _ => []
  | (client, c) :: rest, d => ⟨client, c, d⟩ :: turns rest (d.deliver c.arriving .empty).2.2

namespace Turn

def queued (t : Turn State) : Outbox := (t.dispatcher.deliver t.connection.arriving .empty).2.1

def polled (t : Turn State) : Connection := (t.connection.poll t.dispatcher .empty).2.1

def answered (all : List Bytes) (t : Turn State) : Connection := (t.queued.replies ++ all).foldl Connection.queue t.polled

end Turn

def exchange (s : Server) (d : Dispatcher State) : Server × Dispatcher State :=
  let (clients, broadcasts, d) := pollClients s.clients d
  (broadcasts.foldl broadcast { s with clients }, d)

theorem pollExchange (s : Server) (arrivals : List Arrival) (d : Dispatcher State) :
    s.poll arrivals d =
      let between := exchange (accept arrivals s).2 d
      ((accept arrivals s).1 ++ between.1.flush.clients.filterMap farewell?,
        { between.1.flush with clients := between.1.flush.clients.filter fun entry => entry.2.isOpen }, between.2) := rfl

def broadcastsOf (ts : List (Turn State)) : List Bytes := ts.flatMap (·.queued.broadcasts)

section
variable {clients : List (ClientId × Connection)}

theorem turnsClients (clients : List (ClientId × Connection)) (d : Dispatcher State) :
    (turns clients d).map (fun t => (t.client, t.connection)) = clients := by
  induction clients generalizing d with
  | nil => rfl
  | cons head rest ih => rw [turns, List.map_cons, ih]

theorem turnPlace {d : Dispatcher State} {t : Turn State} (member : t ∈ turns clients d) :
    (t.client, t.connection) ∈ clients := by
  rw [← turnsClients clients d]
  exact List.mem_map_of_mem member

theorem visitsTurns (resting : ∀ entry ∈ clients, entry.2.Resting) (d : Dispatcher State) :
    (visits clients d).1 = (turns clients d).map fun t => ⟨t.client, t.polled, t.queued⟩ := by
  induction clients generalizing d with
  | nil => rfl
  | cons head rest ih =>
    obtain ⟨here, others⟩ := List.forall_mem_cons.1 resting
    have delivers := Connection.pollDelivers here d .empty
    simp only [visits, turns, List.map_cons, Turn.polled, Turn.queued, delivers, ih others]

theorem exchangeTurns {s : Server} (resting : ∀ entry ∈ s.clients, entry.2.Resting) (d : Dispatcher State) :
    (exchange s d).1 = { s with
      clients := (turns s.clients d).map fun t => (t.client, t.answered (broadcastsOf (turns s.clients d))) } := by
  have visited := visitsTurns resting d
  have all : broadcasts (visits s.clients d).1 = broadcastsOf (turns s.clients d) := by
    rw [visited, broadcasts, broadcastsOf, List.flatMap_map]
  simp only [exchange, pollClientsVisits, broadcastAll, all]
  simp only [visited, List.map_map, Turn.answered, List.foldl_append]
  rfl

end

end Server

end RobotLink
