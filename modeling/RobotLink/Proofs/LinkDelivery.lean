import Mathlib
import RobotLink.Proofs.MessageDelivery
import RobotLink.Proofs.ReadRounds

/-! Two connections and the wire between them. The bytes of a message may stand with the sender,
on the wire and with the receiver in any proportion; what was seen and those bytes are together
what was sent, whoever acts next. -/
namespace RobotLink

namespace Stream

theorem intakeArriving {reads : List ReadResult} (h : Arriving reads) :
    (intake reads).lost = none ∧ Arriving (intake reads).later ∧
      unread reads = (intake reads).bytes ++ unread (intake reads).later := by
  induction reads with
  | nil => exact ⟨rfl, h, rfl⟩
  | cons first reads ih =>
    obtain ⟨own, others⟩ := List.forall_mem_cons.1 h
    rcases own with rfl | rfl | ⟨b, bytes, rfl⟩
    · exact ⟨rfl, others, rfl⟩
    · exact ih others
    · obtain ⟨lost, arriving, same⟩ := ih others
      refine ⟨lost, arriving, ?_⟩
      rw [unread, same, ← List.append_assoc]
      rfl

end Stream

namespace Connection
variable {State : Type}

structure Received.Brings (x : Received (State × List Message)) (r : Reassembler)
    (w : Dispatcher (State × List Message)) (ahead : Bytes) (first later : List Message) : Prop where
  lost : x.lost = none
  report : x.report = ⟨first.length, []⟩
  awaits : x.cursor.Awaits x.dispatcher (Stream.unread x.reads ++ ahead) later
  seen : x.dispatcher.state.2 = w.state.2 ++ first
  limit : x.cursor.limit = r.limit
  widths : x.dispatcher.widths = w.widths

theorem receiveBrings {reads : List ReadResult} {r : Reassembler} {w : Dispatcher (State × List Message)}
    {out : Outbox} {ahead : Bytes} {ms : List Message} (arriving : Stream.Arriving reads)
    (h : r.Awaits w (Stream.unread reads ++ ahead) ms) :
    ∃ first later, ms = first ++ later ∧ (receive reads r w out).Brings r w ahead first later := by
  obtain ⟨stays, _, divided⟩ := Stream.intakeArriving arriving
  rw [divided, List.append_assoc] at h
  obtain ⟨first, later, cursor, rest, same, here, report, log, widths, awaits⟩ := h.divides out
  have meets := @receiveMeets _ reads r w out _ _ h.idle here
  obtain ⟨answered, reads, idle, stands⟩ := meets.stays cursor rest rfl
  refine ⟨first, later, same, meets.lost.trans stays, answered.trans report, ?_, ?_, (Reassembler.pastFields stands).1, ?_⟩
  · rw [meets.dispatcher, reads]
    exact awaits _ idle stands
  · rw [meets.dispatcher, log]
  · rw [meets.dispatcher, widths]

theorem pollBrings {c : Connection} {r : Reassembler} {w : Dispatcher (State × List Message)} {ahead : Bytes}
    {ms : List Message} (out : Outbox) (cursor : c.cursor = some r) (arriving : Stream.Arriving c.stream.reads)
    (h : r.Awaits w (Stream.unread c.stream.reads ++ ahead) ms) :
    ∃ first later, ∃ x : Received (State × List Message), ms = first ++ later ∧ x.Brings r w ahead first later ∧
      c.poll w out =
        (if first = [] then .idle else .data ⟨first.length, []⟩, c.afterRead x, x.outbox, x.dispatcher) := by
  obtain ⟨first, later, rfl, brings⟩ := @receiveBrings _ _ _ _ out _ _ arriving h
  refine ⟨first, later, _, rfl, brings, ?_⟩
  simp only [poll, cursor, brings.lost, brings.report, List.length_eq_zero_iff, afterRead]

end Connection

def ConnectionEvent.undisturbed : ConnectionEvent → Bool
  | .idle => true
  | .data report => report.discards.isEmpty
  | .lost _ => false

inductive Reading where
  | piece (count : Nat)
  | wouldBlock
  | interrupted
  deriving DecidableEq, Repr

def Reading.draw : List Reading → Bytes → List ReadResult × Bytes
  | [], wire => ([], wire)
  | .wouldBlock :: rest, wire => (.wouldBlock :: (draw rest wire).1, (draw rest wire).2)
  | .interrupted :: rest, wire => (.interrupted :: (draw rest wire).1, (draw rest wire).2)
  | .piece count :: rest, wire =>
    match wire.take count with
    | [] => (.wouldBlock :: (draw rest wire).1, (draw rest wire).2)
    | b :: bytes => (.data (b :: bytes) :: (draw rest (wire.drop count)).1, (draw rest (wire.drop count)).2)

theorem Reading.drawn (readings : List Reading) (wire : Bytes) :
    Stream.Arriving (draw readings wire).1 ∧
      Stream.unread (draw readings wire).1 ++ (draw readings wire).2 = wire := by
  induction readings generalizing wire with
  | nil => exact ⟨nofun, rfl⟩
  | cons reading rest ih =>
    obtain ⟨arriving, same⟩ := ih wire
    cases reading with
    | wouldBlock => exact ⟨List.forall_mem_cons.2 ⟨.inl rfl, arriving⟩, same⟩
    | interrupted => exact ⟨List.forall_mem_cons.2 ⟨.inr (.inl rfl), arriving⟩, same⟩
    | piece count =>
      unfold draw
      split
      next => exact ⟨List.forall_mem_cons.2 ⟨.inl rfl, arriving⟩, same⟩
      next b bytes taken =>
        obtain ⟨arriving, same⟩ := ih (wire.drop count)
        refine ⟨List.forall_mem_cons.2 ⟨.inr (.inr ⟨b, bytes, rfl⟩), arriving⟩, ?_⟩
        rw [Stream.unread, List.append_assoc, same, ← taken, List.take_append_drop]

structure Link (State : Type) where
  sender : Connection
  wire : Bytes
  receiver : Connection
  dispatcher : Dispatcher (State × List Message)
  sent : List Message
  events : List ConnectionEvent

namespace Link
variable {State : Type}

inductive Action where
  | send (m : Message)
  | flush (writes : List WriteResult) (flushes : List FlushResult)
  | close (reason : String)
  | poll (readings : List Reading) (out : Outbox)
  deriving DecidableEq, Repr

def fresh (d : Dispatcher State) (senderLimit limit : UInt32) : Link State :=
  ⟨.fresh .idle "receiver" senderLimit, [], .fresh .idle "sender" limit, d.watched, [], []⟩

def offered (l : Link State) (readings : List Reading) : Connection :=
  { l.receiver with stream := { l.receiver.stream with reads := (Reading.draw readings l.wire).1 } }

def act (l : Link State) : Action → Link State
  | .send m => { l with sender := l.sender.send m, sent := if l.sender.isOpen then l.sent ++ [m] else l.sent }
  | .flush writes flushes =>
    let sender := ({ l.sender with stream := ⟨[], writes, flushes, []⟩ }.flush).2
    { l with sender, wire := l.wire ++ sender.stream.written }
  | .close reason => { l with sender := l.sender.close reason }
  | .poll readings out =>
    let (event, receiver, _, dispatcher) := (l.offered readings).poll l.dispatcher out
    { l with
      receiver, dispatcher
      wire := Stream.unread receiver.stream.reads ++ (Reading.draw readings l.wire).2
      events := l.events ++ [event] }

def seen (l : Link State) : List Message := l.dispatcher.state.2

structure Carries (limit : UInt32) (widths : WidthTable) (l : Link State) (ms : List Message) (gone : Bytes) :
    Prop where
  sent : l.sent = l.seen ++ ms
  awaits : ∃ r, l.receiver.cursor = some r ∧ r.limit = limit ∧
    r.Awaits l.dispatcher (l.wire ++ (l.sender.pending.toBytes ++ gone)) ms
  kept : l.sender.isOpen → gone = []
  widths : l.dispatcher.widths = widths
  undisturbed : ∀ e ∈ l.events, e.undisturbed

theorem carriesFresh (d : Dispatcher State) (senderLimit limit : UInt32) :
    (fresh d senderLimit limit).Carries limit d.widths [] [] := by
  have awaits : (Reassembler.fresh limit).Awaits d.watched ([].flatMap Message.encode) [] :=
    Reassembler.awaitsFresh d.watchedWatches nofun nofun
  exact ⟨rfl, ⟨_, rfl, rfl, awaits⟩, fun _ => rfl, rfl, nofun⟩

section
variable {l : Link State} {limit : UInt32} {widths : WidthTable} {ms : List Message} {gone : Bytes}

theorem Carries.onSend (h : l.Carries limit widths ms gone) {m : Message} (formed : m.WellFormed widths)
    (fits : m.frame.bodyLength ≤ limit.toNat) : ∃ ms, (l.act (.send m)).Carries limit widths ms gone := by
  obtain ⟨sent, ⟨r, cursor, rfl, awaits⟩, kept, rfl, undisturbed⟩ := h
  by_cases isOpen : l.sender.isOpen
  · have queued : l.sender.send m = { l.sender with pending := l.sender.pending.push m.encode } := if_pos isOpen
    refine ⟨ms ++ [m], ?_, ⟨r, cursor, rfl, ?_⟩, fun _ => kept isOpen, rfl, undisturbed⟩
    · simp only [act, if_pos isOpen, sent, List.append_assoc, seen]
    · have longer := awaits.send formed fits
      simp only [act, queued, ByteQueue.toBytesPush]
      rw [kept isOpen, List.append_nil, List.append_assoc] at longer
      rw [kept isOpen, List.append_nil]
      exact longer
  · have queued : l.sender.send m = l.sender := if_neg isOpen
    have same : l.act (.send m) = l := by simp only [act, queued, if_neg isOpen]
    rw [same]
    exact ⟨ms, sent, ⟨r, cursor, rfl, awaits⟩, kept, rfl, undisturbed⟩

theorem Carries.onFlush (h : l.Carries limit widths ms gone) (writes : List WriteResult)
    (flushes : List FlushResult) : (l.act (.flush writes flushes)).Carries limit widths ms gone := by
  obtain ⟨sent, ⟨r, cursor, sameLimit, awaits⟩, kept, sameWidths, undisturbed⟩ := h
  obtain ⟨bytes, sameOpen⟩ := Connection.flushKeeps { l.sender with stream := ⟨[], writes, flushes, []⟩ }
  refine ⟨sent, ⟨r, cursor, sameLimit, ?_⟩, fun isOpen => kept ?_, sameWidths, undisturbed⟩
  · simp only [act]
    rw [List.append_assoc, ← List.append_assoc _ _ gone, bytes]
    exact awaits
  · simp only [act, Connection.isOpen, sameOpen] at isOpen
    exact isOpen

theorem Carries.onClose (h : l.Carries limit widths ms gone) (reason : String) :
    ∃ gone, (l.act (.close reason)).Carries limit widths ms gone := by
  obtain ⟨sent, ⟨r, cursor, sameLimit, awaits⟩, kept, sameWidths, undisturbed⟩ := h
  obtain ⟨closed, none⟩ := l.sender.closeCloses reason
  -- The pending bytes never arrive, but the bytes on the wire are cut as if they still could.
  refine ⟨l.sender.pending.toBytes ++ gone, sent, ⟨r, cursor, sameLimit, ?_⟩, ?_, sameWidths, undisturbed⟩
  · simp only [act, none]
    exact awaits
  · intro isOpen
    rw [act, closed] at isOpen
    cases isOpen

theorem Carries.onPoll (h : l.Carries limit widths ms gone) (readings : List Reading) (out : Outbox) :
    ∃ ms, (l.act (.poll readings out)).Carries limit widths ms gone := by
  obtain ⟨sent, ⟨r, cursor, rfl, awaits⟩, kept, rfl, undisturbed⟩ := h
  obtain ⟨arriving, whole⟩ := Reading.drawn readings l.wire
  rw [← whole, List.append_assoc] at awaits
  obtain ⟨first, later, x, rfl, brings, polled⟩ :=
    Connection.pollBrings (c := l.offered readings) out cursor arriving awaits
  refine ⟨later, ?_⟩
  simp only [act, polled]
  refine ⟨?_, ⟨x.cursor, rfl, brings.limit, ?_⟩, kept, brings.widths, ?_⟩
  · simp only [seen, brings.seen, List.append_assoc]
    exact sent
  · simp only [List.append_assoc]
    exact brings.awaits
  · refine List.forall_mem_append.2 ⟨undisturbed, List.forall_mem_singleton.2 ?_⟩
    split <;> rfl

theorem Carries.onActions (h : l.Carries limit widths ms gone) {actions : List Action}
    (formed : ∀ m, .send m ∈ actions → m.WellFormed widths)
    (fits : ∀ m, .send m ∈ actions → m.frame.bodyLength ≤ limit.toNat) :
    ∃ ms gone, (actions.foldl act l).Carries limit widths ms gone := by
  induction actions generalizing l ms gone with
  | nil => exact ⟨ms, gone, h⟩
  | cons action rest ih =>
    have after : ∃ ms gone, (l.act action).Carries limit widths ms gone := by
      cases action with
      | send m =>
        obtain ⟨ms, h⟩ := h.onSend (formed m List.mem_cons_self) (fits m List.mem_cons_self)
        exact ⟨ms, gone, h⟩
      | flush writes flushes => exact ⟨ms, gone, h.onFlush writes flushes⟩
      | close reason => exact ⟨ms, h.onClose reason⟩
      | poll readings out =>
        obtain ⟨ms, h⟩ := h.onPoll readings out
        exact ⟨ms, gone, h⟩
    obtain ⟨_, _, h⟩ := after
    exact ih h (fun m member => formed m (List.mem_cons_of_mem _ member))
      fun m member => fits m (List.mem_cons_of_mem _ member)

/-- Whatever sender and receiver do in turn, the messages seen are the first of those sent, and all
of them when no byte is left with an open sender or on the wire. -/
theorem sentMessagesSeen (d : Dispatcher State) (senderLimit limit : UInt32) (actions : List Action)
    (formed : ∀ m, .send m ∈ actions → m.WellFormed d.widths)
    (fits : ∀ m, .send m ∈ actions → m.frame.bodyLength ≤ limit.toNat) :
    let l := actions.foldl act (fresh d senderLimit limit)
    l.seen <+: l.sent ∧ l.receiver.isOpen ∧ (∀ e ∈ l.events, e.undisturbed) ∧
      (l.sender.isOpen → l.sender.pending.toBytes = [] → l.wire = [] → l.seen = l.sent) := by
  intro l
  obtain ⟨ms, gone, h⟩ := (carriesFresh d senderLimit limit).onActions formed fits
  obtain ⟨r, cursor, _, awaits⟩ := h.awaits
  refine ⟨⟨ms, h.sent.symm⟩, ?_, h.undisturbed, fun isOpen none empty => ?_⟩
  · rw [Connection.isOpen, cursor]
    rfl
  · rw [h.kept isOpen, none, empty] at awaits
    obtain ⟨rfl, _⟩ := awaits.none
    rw [h.sent, List.append_nil]

end

theorem twoMessagesSeen :
    let actions : List Action := [.send (.word .battery 742), .flush [.accept 3, .wouldBlock] [],
      .poll [.piece 2, .interrupted, .piece 9] .empty, .send (.luaScripts ["a.lua"]), .flush [.interrupted] [.wouldBlock],
      .poll [.piece 5, .wouldBlock] ⟨[], [[1]]⟩, .poll [.piece 100] .empty]
    let l := actions.foldl act (fresh (Dispatcher.fresh .standard ()) 1 64)
    (∀ m, .send m ∈ actions → m.WellFormed WidthTable.standard) ∧
      (∀ m, .send m ∈ actions → m.frame.bodyLength ≤ (64 : UInt32).toNat) ∧
      l.sent = [.word .battery 742, .luaScripts ["a.lua"]] ∧ l.seen = l.sent := by
  intro actions l
  have sent : ∀ m, .send m ∈ actions → m = .word .battery 742 ∨ m = .luaScripts ["a.lua"] := by
    intro m member
    simpa [actions] using member
  have formed : ∀ m, .send m ∈ actions → m.WellFormed WidthTable.standard := by
    intro m member
    rcases sent m member with rfl | rfl
    · exact ⟨rfl, rfl⟩
    · trivial
  have fits : ∀ m, .send m ∈ actions → m.frame.bodyLength ≤ (64 : UInt32).toNat := by
    intro m member
    rcases sent m member with rfl | rfl <;> decide
  obtain ⟨_, _, _, all⟩ := sentMessagesSeen (Dispatcher.fresh .standard ()) 1 64 actions formed fits
  have isOpen : l.sender.isOpen := by cbv
  have none : l.sender.pending.toBytes = [] := by cbv
  have empty : l.wire = [] := by cbv
  exact ⟨formed, fits, by cbv, all isOpen none empty⟩

end Link

end RobotLink
