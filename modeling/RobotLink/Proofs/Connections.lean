import RobotLink.Connection
import RobotLink.Proofs.FrameLoop

/-! What the operations of a connection do to its bytes and to the dispatcher. A write loses no
byte, a poll leaves what is to be sent alone, and what each dispatch does along the way adds up
over a poll. -/
namespace RobotLink

namespace Connection
variable {State : Type}

def afterRead (c : Connection) (x : Received State) : Connection :=
  { c with stream := { c.stream with reads := x.reads }, cursor := some x.cursor }

inductive PollStep (c : Connection) (d : Dispatcher State) (out : Outbox) :
    ConnectionEvent × Connection × Outbox × Dispatcher State → Prop
  | gone (gone : c.cursor = none) : PollStep c d out (.lost (c.lost.getD "connection closed"), c, out, d)
  | lost {r : Reassembler} {reason : String} (cursor : c.cursor = some r)
      (lost : (receive c.stream.reads r d out).lost = some reason) :
      PollStep c d out (.lost reason, (c.afterRead (receive c.stream.reads r d out)).close reason,
        (receive c.stream.reads r d out).outbox, (receive c.stream.reads r d out).dispatcher)
  | stays {r : Reassembler} (cursor : c.cursor = some r) (stays : (receive c.stream.reads r d out).lost = none) :
      PollStep c d out
        (if (receive c.stream.reads r d out).report.frames = 0 then .idle
          else .data (receive c.stream.reads r d out).report,
          c.afterRead (receive c.stream.reads r d out), (receive c.stream.reads r d out).outbox,
          (receive c.stream.reads r d out).dispatcher)

theorem pollStep (c : Connection) (d : Dispatcher State) (out : Outbox) : PollStep c d out (c.poll d out) := by
  cases cursor : c.cursor with
  | none =>
    simp only [poll, cursor]
    exact .gone cursor
  | some r =>
    cases lost : (receive c.stream.reads r d out).lost with
    | some reason =>
      simp only [poll, cursor, lost]
      exact .lost cursor lost
    | none =>
      simp only [poll, cursor, lost]
      exact .stays cursor lost

end Connection

namespace Dispatcher
variable {State : Type}

def Keeps (P : Outbox → Dispatcher State → Prop) : Prop :=
  ∀ d out frame, P out d → P (d.dispatch frame out).2.1 (d.dispatch frame out).2.2

section
variable {P : Outbox → Dispatcher State → Prop} {d : Dispatcher State} {out : Outbox}

theorem Keeps.deliver (h : Keeps P) (cut : List Piece) (here : P out d) :
    P (d.deliver cut out).2.1 (d.deliver cut out).2.2 := by
  induction cut generalizing d out with
  | nil => exact here
  | cons piece rest ih =>
    cases piece with
    | empty => exact ih here
    | frame f => exact ih (h d out f here)

theorem Keeps.process (h : Keeps P) (r : Reassembler) (here : P out d) :
    P (r.process d out).2.2.1 (r.process d out).2.2.2 := by
  have step := Reassembler.processStep r d out
  generalize r.process d out = processed at step
  cases step with
  | latched => exact here
  | waiting | tooLarge => exact h.deliver _ here

theorem Keeps.receive (h : Keeps P) (reads : List ReadResult) (r : Reassembler) (here : P out d) :
    P (Connection.receive reads r d out).outbox (Connection.receive reads r d out).dispatcher := by
  fun_induction Connection.receive reads r d out with
  | case1 | case2 | case3 => exact here
  | case4 _ _ _ _ _ _ _ ih => exact ih here
  | case5 reads r d out bytes later _ _ report after left e fed x =>
    rename_i ih
    have first := h.process (r.extend bytes) here
    rw [show (r.extend bytes).process d out = _ from fed] at first
    exact ih first
  | case6 reads r d out bytes later _ _ error after left e fed =>
    have first := h.process (r.extend bytes) here
    rw [show (r.extend bytes).process d out = _ from fed] at first
    exact first

theorem Keeps.poll (h : Keeps P) (c : Connection) (here : P out d) :
    P (c.poll d out).2.2.1 (c.poll d out).2.2.2 := by
  have step := c.pollStep d out
  generalize c.poll d out = polled at step
  cases step with
  | gone => exact here
  | lost | stays => exact h.receive _ _ here

end

end Dispatcher

theorem Stream.writeKeeps (s : Stream) (pending : Bytes) :
    (s.write pending).1.written ++ (s.write pending).2.1 = s.written ++ pending := by
  have parts (writes : List WriteResult) (pending : Bytes) :
      (write.go writes pending).1 ++ (write.go writes pending).2.2.1 = pending := by
    fun_induction write.go writes pending with
    | case1 | case2 | case3 | case5 | case7 => simp
    | case4 writes b rest count positive taken later left e found ih =>
      rw [found] at ih
      rw [List.append_assoc, ih, List.take_append_drop]
    | case6 writes b rest ih => exact ih
  rw [write, List.append_assoc, parts]

theorem Stream.flushPasses (s : Stream) : s.flush.1.written = s.written ∧ s.flush.1.writes = s.writes := by
  unfold flush
  split <;> exact ⟨rfl, rfl⟩

namespace Connection

theorem flushKeeps (c : Connection) :
    c.flush.2.stream.written ++ c.flush.2.pending.toBytes = c.stream.written ++ c.pending.toBytes ∧
      c.flush.2.cursor = c.cursor := by
  have kept := c.stream.writeKeeps c.pending.toBytes
  unfold flush
  rcases written : c.stream.write c.pending.toBytes with ⟨stream, left, e⟩
  rw [written] at kept
  cases e with
  | some e => exact ⟨by rw [ByteQueue.toBytesOfBytes]; exact kept, rfl⟩
  | none =>
    refine ⟨?_, rfl⟩
    simp only [stream.flushPasses.1, ByteQueue.toBytesOfBytes]
    exact kept

theorem flushOnly (c : Connection) : ∃ stream pending, c.flush.2 = { c with stream, pending } := by
  unfold flush
  rcases c.stream.write c.pending.toBytes with ⟨stream, left, _ | e⟩ <;> exact ⟨_, _, rfl⟩

theorem closeCloses (c : Connection) (reason : String) :
    (c.close reason).isOpen = false ∧ (c.close reason).pending = .empty := by
  unfold close
  split
  · exact ⟨rfl, rfl⟩
  next shut => exact ⟨Bool.eq_false_iff.2 shut, rfl⟩

theorem pollKeeps {State : Type} {c : Connection} {d : Dispatcher State} {out : Outbox}
    (isOpen : (c.poll d out).2.1.isOpen) :
    c.isOpen ∧ (c.poll d out).2.1.pending = c.pending ∧ (c.poll d out).2.1.stream.written = c.stream.written := by
  have step := c.pollStep d out
  generalize c.poll d out = polled at step isOpen
  cases step with
  | gone gone =>
    simp only [Connection.isOpen, gone] at isOpen
    cases isOpen
  | lost =>
    simp only [(closeCloses _ _).1] at isOpen
    cases isOpen
  | stays cursor =>
    refine ⟨?_, rfl, rfl⟩
    rw [Connection.isOpen, cursor]
    rfl

theorem queueOpen (frames : List Bytes) {c : Connection} (isOpen : c.isOpen) :
    ∃ pending, frames.foldl queue c = { c with pending } ∧ pending.toBytes = c.pending.toBytes ++ frames.flatten := by
  induction frames generalizing c with
  | nil => exact ⟨c.pending, rfl, (List.append_nil _).symm⟩
  | cons frame rest ih =>
    have one : c.queue frame = { c with pending := c.pending.push frame } := if_pos isOpen
    obtain ⟨pending, same, bytes⟩ := @ih { c with pending := c.pending.push frame } isOpen
    refine ⟨pending, ?_, bytes.trans ?_⟩
    · rw [List.foldl_cons, one, same]
    · rw [ByteQueue.toBytesPush, List.flatten_cons, List.append_assoc]

theorem queueAll (frames : List Bytes) {c : Connection} (isOpen : c.isOpen) :
    (frames.foldl queue c).isOpen ∧ (frames.foldl queue c).stream = c.stream ∧
      (frames.foldl queue c).pending.toBytes = c.pending.toBytes ++ frames.flatten := by
  obtain ⟨pending, same, bytes⟩ := queueOpen frames isOpen
  rw [same]
  exact ⟨isOpen, rfl, bytes⟩

theorem queueNone (frames : List Bytes) {c : Connection} (closed : c.isOpen = false) : frames.foldl queue c = c := by
  induction frames with
  | nil => rfl
  | cons frame rest ih =>
    have none : c.queue frame = c := if_neg (by simp [closed])
    rw [List.foldl_cons, none, ih]

end Connection

end RobotLink
