import RobotLink.Client
import RobotLink.Proofs.ServerTurns

/-! The end of a connection. Whatever its owner does with it, it is open until the first reason to
lose it; from then on it reads nothing, dispatches nothing, sends nothing and answers with that
reason. -/
namespace RobotLink

namespace Connection
variable {State : Type}

inductive Use (State : Type) where
  | poll (d : Dispatcher State) (out : Outbox)
  | queue (bytes : Bytes)
  | send (m : Message)
  | flush
  | close (reason : String)

def use (c : Connection) : Use State → Connection
  | .poll d out => (c.poll d out).2.1
  | .queue bytes => c.queue bytes
  | .send m => c.send m
  | .flush => c.flush.2
  | .close reason => c.close reason

def run (c : Connection) (uses : List (Use State)) : Connection := uses.foldl use c

def reason? (c : Connection) : Use State → Option String
  | .poll .. => c.readLoss
  | .close reason => some reason
  | .queue _ | .send _ | .flush => none

def reasons (c : Connection) : List (Use State) → List String
  | [] => []
  | u :: rest => (c.reason? u).toList ++ reasons (c.use u) rest

section
variable {c : Connection}

theorem pollReason (sound : c.Sound) (d : Dispatcher State) (out : Outbox) :
    (c.poll d out).1.reason? = c.lost.or c.readLoss := by
  have step := pollEnds sound.resting d out
  generalize c.poll d out = after at step ⊢
  cases step with
  | gone gone =>
    have closed : c.isOpen = false := by rw [isOpen, gone]; rfl
    obtain ⟨reason, lost⟩ := sound.closedFor closed
    rw [lost]
    rfl
  | loses isOpen loss =>
    rw [sound.openFor isOpen, loss]
    rfl
  | stays cursor stays =>
    rw [sound.openFor (by rw [isOpen, cursor]; rfl), stays]
    split <;> rfl

theorem Sound.pollTells (sound : c.Sound) (d : Dispatcher State) (out : Outbox) :
    (c.poll d out).1.reason? = (c.poll d out).2.1.lost := by
  rw [(sound.polled d out).2, pollReason sound d out, ← Option.or_assoc, Option.or_self]

theorem flushSilent (silent : c.pending.toBytes = []) :
    ∃ flushes, c.flush.2 = { c with stream := { c.stream with flushes }, pending := .ofBytes [] } := by
  have nothing : c.stream.write [] = (c.stream, [], none) := by
    simp only [Stream.write, Stream.write.go, List.append_nil]
  simp only [flush, silent, nothing]
  unfold Stream.flush
  split <;> exact ⟨_, rfl⟩

theorem Sound.flushing (sound : c.Sound) : c.flush.2.Sound ∧ c.flush.2.lost = c.lost := by
  cases isOpen : c.isOpen with
  | true =>
    obtain ⟨stream, pending, only⟩ := c.flushOnly
    rw [only]
    exact ⟨sound.sending isOpen stream pending, rfl⟩
  | false =>
    obtain ⟨flushes, only⟩ := flushSilent (sound.silent isOpen)
    rw [only]
    exact ⟨⟨sound.lost, fun _ => ByteQueue.toBytesOfBytes [], sound.resting⟩, rfl⟩

theorem Sound.closing (sound : c.Sound) (reason : String) :
    (c.close reason).Sound ∧ (c.close reason).lost = c.lost.or (some reason) := by
  cases isOpen : c.isOpen with
  | true =>
    have closes : c.close reason = ⟨c.stream, c.peer, none, .empty, some reason⟩ := if_pos isOpen
    rw [closes, sound.openFor isOpen]
    exact ⟨soundLost .., rfl⟩
  | false =>
    have clears : c.close reason = { c with pending := .empty } := if_neg (by simp [isOpen])
    obtain ⟨first, lost⟩ := sound.closedFor isOpen
    rw [clears]
    exact ⟨⟨sound.lost, fun _ => ByteQueue.toBytesOfBytes [], sound.resting⟩, by rw [lost]; rfl⟩

theorem Sound.used (sound : c.Sound) (u : Use State) :
    (c.use u).Sound ∧ (c.use u).lost = c.lost.or (c.reason? u) := by
  cases u with
  | poll d out =>
    have polled := sound.polled d out
    rw [pollReason sound d out, ← Option.or_assoc, Option.or_self] at polled
    exact polled
  | queue bytes =>
    rw [reason?, Option.or_none]
    exact sound.queued [bytes]
  | send m =>
    rw [reason?, Option.or_none]
    exact sound.queued [m.encode]
  | flush =>
    rw [reason?, Option.or_none]
    exact sound.flushing
  | close reason => exact sound.closing reason

theorem Sound.ran (sound : c.Sound) (uses : List (Use State)) :
    (c.run uses).Sound ∧ (c.run uses).lost = c.lost.or (c.reasons uses).head? := by
  induction uses generalizing c with
  | nil => exact ⟨sound, (Option.or_none).symm⟩
  | cons u rest ih =>
    obtain ⟨sound', lost⟩ := sound.used u
    obtain ⟨last, first⟩ := ih sound'
    refine ⟨last, first.trans ?_⟩
    rw [lost, Option.or_assoc, reasons, List.head?_append]
    cases c.reason? u <;> rfl

end

structure Remains (State : Type) (c : Connection) (reason : String) (l : Connection) : Prop where
  gone : l.isOpen = false
  lost : l.lost = some reason
  silent : l.pending.size = 0
  reads : l.stream.reads = c.stream.reads
  writes : l.stream.writes = c.stream.writes
  written : l.stream.written = c.stream.written
  answers : ∀ (d : Dispatcher State) (out : Outbox), l.poll d out = (.lost reason, l, out, d)

section
variable {c l : Connection} {reason : String}

theorem pollGone (gone : l.isOpen = false) (lost : l.lost = some reason) (d : Dispatcher State) (out : Outbox) :
    l.poll d out = (.lost reason, l, out, d) := by
  have none : l.cursor = none := Option.not_isSome_iff_eq_none.1 (Bool.eq_false_iff.1 gone)
  simp only [poll, none, lost]
  rfl

theorem Remains.used (h : Remains State c reason l) (u : Use State) : Remains State c reason (l.use u) := by
  have unqueued (frames : List Bytes) : Remains State c reason (frames.foldl queue l) := by
    rw [queueNone frames h.gone]
    exact h
  cases u with
  | poll d out =>
    rw [use, h.answers]
    exact h
  | queue bytes => exact unqueued [bytes]
  | send m => exact unqueued [m.encode]
  | flush =>
    have silent : l.pending.toBytes = [] := List.eq_nil_of_length_eq_zero (l.pending.sizeEq.symm.trans h.silent)
    obtain ⟨flushes, only⟩ := flushSilent silent
    rw [use, only]
    exact ⟨h.gone, h.lost, rfl, h.reads, h.writes, h.written, pollGone h.gone h.lost⟩
  | close other =>
    have clears : l.close other = { l with pending := .empty } := if_neg (by simp [h.gone])
    rw [use, clears]
    exact ⟨h.gone, h.lost, rfl, h.reads, h.writes, h.written, pollGone h.gone h.lost⟩

theorem Remains.ran (h : Remains State c reason l) (later : List (Use State)) :
    Remains State c reason (l.run later) := by
  induction later generalizing l with
  | nil => exact h
  | cons u rest ih => exact ih (h.used u)

theorem Sound.remains (sound : c.Sound) (lost : c.lost = some reason) : Remains State c reason c := by
  have gone : c.isOpen = false := by rw [sound.lost, lost]; rfl
  have silent : c.pending.size = 0 := by rw [ByteQueue.sizeEq, sound.silent gone]; rfl
  exact ⟨gone, lost, silent, rfl, rfl, rfl, pollGone gone lost⟩

end

end Connection

namespace Client
variable {State : Type}

def pollUses (c : Client) (d : Dispatcher State) : List (Connection.Use State) :=
  match c.connection.poll d .empty with
  | (.lost _, _, _, _) => [.poll d .empty]
  | (_, connection, out, _) =>
    let queues := (out.replies ++ out.broadcasts).map Connection.Use.queue
    .poll d .empty :: (queues ++ .flush :: ((connection.run queues).flush.1.map (.close ∘ IoError.message)).toList)

theorem pollRuns (c : Client) (d : Dispatcher State) :
    (c.poll d).2.1.connection = c.connection.run (c.pollUses d) := by
  have queues (connection : Connection) (frames : List Bytes) :
      frames.foldl Connection.queue connection = connection.run (frames.map (@Connection.Use.queue State)) := by
    rw [Connection.run, List.foldl_map]
    rfl
  simp only [poll, pollUses, queues]
  rcases polled : c.connection.poll d .empty with ⟨event, connection, out, e⟩
  have first : c.connection.use (.poll d .empty) = connection := by rw [Connection.use, polled]
  cases event with
  | lost => exact first.symm
  | idle | data =>
    simp only [Connection.run, List.foldl_cons, List.foldl_append, Connection.use, polled]
    rcases (List.foldl Connection.use connection _).flush with ⟨_ | e, after⟩ <;> rfl

theorem pollTells {c : Client} (sound : c.connection.Sound) (d : Dispatcher State) :
    (c.poll d).1.reason? = (c.poll d).2.1.connection.lost := by
  obtain ⟨between, _⟩ := sound.polled d .empty
  have tells := sound.pollTells d .empty
  rcases polled : c.connection.poll d .empty with ⟨event, connection, out, e⟩
  rw [polled] at tells between
  cases event with
  | lost reason =>
    simp only [poll, polled]
    exact tells
  | idle | data =>
    have alive : connection.lost = none := tells.symm
    obtain ⟨queued, same⟩ := between.queued (out.replies ++ out.broadcasts)
    have flushing := queued.flushing
    simp only [poll, polled]
    rcases flushed : (List.foldl Connection.queue connection (out.replies ++ out.broadcasts)).flush with ⟨e, after⟩
    rw [flushed, same, alive] at flushing
    obtain ⟨last, still⟩ := flushing
    cases e with
    | none => exact still.symm
    | some e =>
      have closes := (last.closing e.message).2
      rw [still] at closes
      exact closes.symm

end Client

namespace Connection
variable {State : Type}

/-- A connection is lost for the first reason that its uses bring, and for good; a client's poll is some
of these uses, and tells of the loss whatever of it lost the connection. -/
theorem firstLossFinal (stream : Stream) (peer : String) (limit : UInt32) (uses : List (Use State)) :
    let c := (fresh stream peer limit).run uses
    c.lost = ((fresh stream peer limit).reasons uses).head? ∧ c.isOpen = c.lost.isNone ∧
      (∀ (d : Dispatcher State) (out : Outbox), (c.poll d out).1.reason? = c.lost.or c.readLoss) ∧
      (∀ reason, c.lost = some reason → ∀ later : List (Use State), Remains State c reason (c.run later)) ∧
      ∀ d : Dispatcher State,
        let client : Client := ⟨c⟩
        (client.poll d).2.1.connection = c.run (client.pollUses d) ∧
          (client.poll d).1.reason? = (client.poll d).2.1.connection.lost := by
  intro c
  obtain ⟨sound, lost⟩ := (soundFresh stream peer limit).ran uses
  exact ⟨lost, sound.lost, pollReason sound, fun reason lost later => (sound.remains lost).ran later,
    fun d => ⟨Client.pollRuns ⟨c⟩ d, Client.pollTells sound d⟩⟩

theorem peerGoneFinal :
    let stream : Stream := ⟨[.interrupted, .endOfStream, .data [1]], [.accept 9], [], []⟩
    let d := Dispatcher.fresh .standard ()
    let c := (fresh stream "peer" 64).run [.send .getScripts, .poll d .empty]
    c.lost = some "closed by peer" ∧
      Remains Unit c "closed by peer" (c.run [.queue [1], .close "bored", .poll d ⟨[[2]], []⟩, .send .getScripts, .flush]) := by
  intro stream d c
  have ended : ((fresh stream "peer" 64).send .getScripts).readLoss = some "closed by peer" :=
    congrArg (fun cut => cut.2.loss 64 (some "closed by peer")) (piecesOfNothing 64)
  have final := firstLossFinal stream "peer" 64 [.send .getScripts, .poll d .empty]
  have lost : c.lost = some "closed by peer" := by
    refine final.1.trans ?_
    simp only [reasons, reason?, use, ended]
    rfl
  exact ⟨lost, final.2.2.2.1 "closed by peer" lost _⟩

end Connection

end RobotLink
