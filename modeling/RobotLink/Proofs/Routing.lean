import Mathlib.Data.List.Forall2
import RobotLink.Proofs.Lifecycle

/-! Where the frames of one poll go. Each client that is still there is sent its own replies and
then all broadcasts, whoever else was lost; and who is lost makes no difference to the others that
falling silent in time would not have made. -/
namespace RobotLink

namespace Stream

def cutOff : Nat → List ReadResult → List ReadResult
  | n, .interrupted :: reads => .interrupted :: cutOff n reads
  | n, .data (b :: bytes) :: reads => keep ((b :: bytes).take n) (cutOff (n - (b :: bytes).length) reads)
  | _, _ => []

theorem intakeCutOff (n : Nat) (reads : List ReadResult) :
    intake (cutOff n reads) = ⟨(intake reads).bytes.take n, none, []⟩ := by
  fun_induction intake reads generalizing n with
  | case1 | case2 | case4 | case5 | case6 => simp [cutOff, intake]
  | case3 reads ih => exact ih n
  | case7 b bytes reads _ ih =>
    rw [cutOff, intakeKeep, ih]
    simp only [List.take_append]

end Stream

theorem Reassembler.Idle.stops {r : Reassembler} (idle : r.Idle) (bytes : Bytes) :
    ∃ n last rest, pieces r.limit r.cursor (r.buffer.toBytes ++ bytes.take n) =
      ((pieces r.limit r.cursor (r.buffer.toBytes ++ bytes)).1, .waiting last rest) := by
  rcases h : pieces r.limit r.cursor (r.buffer.toBytes ++ bytes) with ⟨cut, tail⟩
  cases tail with
  | waiting last rest => exact ⟨bytes.length, last, rest, by rw [List.take_length, h]⟩
  | tooLarge size rest =>
    -- The whole frames end among the bytes to come, or among those held, and then there are none.
    obtain ⟨whole, more, same, here⟩ := piecesBeforeFatal h
    rcases List.append_eq_append_iff.1 same with ⟨first, rfl, rfl⟩ | ⟨behind, buffered, rfl⟩
    · exact ⟨first.length, _, _, by rw [List.take_left, here]⟩
    · have nothing := idle.cut
      rw [buffered] at nothing
      obtain ⟨_, _, _, early, none, _⟩ := dividedPieces nothing
      rw [here] at early
      cases early
      rw [(List.append_eq_nil_iff.1 none.symm).1]
      exact ⟨0, _, _, by rw [List.take_zero, List.append_nil, idle.cut]⟩

namespace Connection
variable {c : Connection}

def silenced (c : Connection) (n : Nat) (writes : List WriteResult) (flushes : List FlushResult) : Connection :=
  { c with stream := { c.stream with reads := Stream.cutOff n c.stream.reads, writes, flushes } }

theorem silencedAlike (resting : c.Resting) : ∃ n, ∀ writes flushes,
    (c.silenced n writes flushes).Resting ∧ (c.silenced n writes flushes).arriving = c.arriving ∧
      (c.silenced n writes flushes).readLoss = none := by
  cases cursor : c.cursor with
  | none =>
    refine ⟨0, fun writes flushes => ⟨resting, ?_, ?_⟩⟩
    · simp only [arriving, silenced, cursor]
    · simp only [readLoss, silenced, cursor]
  | some r =>
    obtain ⟨n, last, rest, same⟩ := (resting r cursor).stops (Stream.intake c.stream.reads).bytes
    refine ⟨n, fun writes flushes => ⟨resting, ?_, ?_⟩⟩
    · simp only [arriving, silenced, cursor, outlook, Stream.intakeCutOff, same]
    · simp only [readLoss, silenced, cursor, outlook, Stream.intakeCutOff, same, Tail.loss]

theorem pollOpen {State : Type} (resting : c.Resting) (d : Dispatcher State) (out : Outbox) :
    ((c.poll d out).2.1.isOpen ↔ c.isOpen ∧ c.readLoss = none) ∧
      (c.poll d out).2.1.stream.written = c.stream.written := by
  have step := pollEnds resting d out
  generalize c.poll d out = after at step ⊢
  cases step with
  | gone gone =>
    have closed : c.isOpen ≠ true := by rw [isOpen, gone]; exact Bool.false_ne_true
    exact ⟨iff_of_false closed fun both => closed both.1, rfl⟩
  | loses isOpen loss =>
    rw [loss]
    exact ⟨iff_of_false Bool.false_ne_true fun both => Option.some_ne_none _ both.2, rfl⟩
  | stays cursor stays =>
    have isOpen : c.isOpen := by rw [isOpen, cursor]; rfl
    exact ⟨iff_of_true rfl ⟨isOpen, stays⟩, rfl⟩

end Connection

namespace Server
variable {State : Type}

structure Turn.Receives (t : Turn State) (all : List Bytes) (c : Connection) : Prop where
  isOpen : c.isOpen ↔ t.connection.isOpen ∧ t.connection.readLoss = none
  written : c.stream.written = t.connection.stream.written
  queued : c.isOpen → c.pending.toBytes = t.connection.pending.toBytes ++ (t.queued.replies ++ all).flatten
  nothing : c.isOpen = false → c.pending.toBytes = []

theorem answeredReceives {t : Turn State} (sound : t.connection.Sound) (all : List Bytes) :
    t.Receives all (t.answered all) := by
  obtain ⟨polledOpen, written⟩ := Connection.pollOpen sound.resting t.dispatcher .empty
  have polled : t.polled.Sound := (sound.polled t.dispatcher .empty).1
  rw [← Turn.polled] at polledOpen written
  rw [Turn.answered]
  cases isOpen : t.polled.isOpen with
  | false =>
    rw [Connection.queueNone _ isOpen]
    refine ⟨polledOpen, written, fun wrong => ?_, polled.silent⟩
    rw [isOpen] at wrong
    cases wrong
  | true =>
    obtain ⟨still, stream, bytes⟩ := Connection.queueAll (t.queued.replies ++ all) isOpen
    obtain ⟨_, pending, _⟩ := @Connection.pollKeeps _ t.connection t.dispatcher .empty isOpen
    refine ⟨iff_of_true still (polledOpen.1 isOpen), stream ▸ written, fun _ => ?_, fun wrong => ?_⟩
    · rw [bytes, Turn.polled, pending]
    · rw [still] at wrong
      cases wrong

def replace (s : Server) (client : ClientId) (c : Connection) : Server :=
  { s with clients := s.clients.map fun (other, before) => (other, if other = client then c else before) }

def others (client : ClientId) (s : Server) : List (ClientId × Connection) :=
  s.clients.filter fun entry => entry.1 ≠ client

theorem exchangeDispatcher {s : Server} (resting : ∀ entry ∈ s.clients, entry.2.Resting) (d : Dispatcher State) :
    (exchange s d).2 = (s.clients.map fun entry => entry.2.arriving).foldl (fun d cut => (d.deliver cut .empty).2.2) d := by
  have visited (clients : List (ClientId × Connection)) (resting : ∀ entry ∈ clients, entry.2.Resting)
      (d : Dispatcher State) :
      (visits clients d).2 = (clients.map fun entry => entry.2.arriving).foldl (fun d cut => (d.deliver cut .empty).2.2) d := by
    induction clients generalizing d with
    | nil => rfl
    | cons head rest ih =>
      obtain ⟨here, later⟩ := List.forall_mem_cons.1 resting
      simp only [visits, Connection.pollDelivers here d, ih later, List.map_cons, List.foldl_cons]
  simp only [exchange, pollClientsVisits, broadcastAll, visited s.clients resting]

theorem swapArriving {client : ClientId} {other : Connection} {clients : List (ClientId × Connection)}
    (alike : ∀ c, (client, c) ∈ clients → other.arriving = c.arriving) {entry : ClientId × Connection}
    (member : entry ∈ clients) : (if entry.1 = client then other else entry.2).arriving = entry.2.arriving := by
  by_cases addressed : entry.1 = client
  · rw [if_pos addressed]
    exact alike entry.2 (addressed ▸ member)
  · rw [if_neg addressed]

theorem turnsReplace {client : ClientId} {other : Connection} {clients : List (ClientId × Connection)}
    (alike : ∀ c, (client, c) ∈ clients → other.arriving = c.arriving) (d : Dispatcher State) :
    turns (clients.map fun (id, before) => (id, if id = client then other else before)) d =
      (turns clients d).map fun t => { t with connection := if t.client = client then other else t.connection } := by
  induction clients generalizing d with
  | nil => rfl
  | cons head rest ih =>
    have same := swapArriving alike (List.mem_cons_self (a := head))
    simp only [List.map_cons, turns, same, ih fun c member => alike c (List.mem_cons_of_mem _ member)]

theorem othersSame {client : ClientId} {ts : List (Turn State)} {f g : Turn State → Connection}
    (same : ∀ t ∈ ts, t.client ≠ client → f t = g t) :
    ((ts.map fun t => (t.client, f t)).filter fun entry => entry.2.isOpen).filter (fun entry => entry.1 ≠ client) =
      ((ts.map fun t => (t.client, g t)).filter fun entry => entry.2.isOpen).filter fun entry => entry.1 ≠ client := by
  have first (h : Turn State → Connection) :
      ((ts.map fun t => (t.client, h t)).filter fun entry => entry.2.isOpen).filter (fun entry => entry.1 ≠ client) =
        ((ts.filter fun t => t.client ≠ client).map fun t => (t.client, h t)).filter fun entry => entry.2.isOpen := by
    rw [List.filter_comm, List.filter_map]
    rfl
  rw [first, first]
  refine congrArg (List.filter _) (List.map_congr_left fun t member => ?_)
  obtain ⟨place, differs⟩ := List.mem_filter.1 member
  rw [same t place (of_decide_eq_true differs)]

section
variable {s : Server} {client : ClientId} {other : Connection}

theorem replaceQueued (alike : ∀ c, (client, c) ∈ s.clients → other.arriving = c.arriving) (d : Dispatcher State) :
    broadcastsOf (turns (s.replace client other).clients d) = broadcastsOf (turns s.clients d) := by
  have replaced : turns (s.replace client other).clients d = _ := turnsReplace alike d
  rw [replaced, broadcastsOf, List.flatMap_map, broadcastsOf]
  refine List.flatMap_congr fun t member => ?_
  simp only [Turn.queued, swapArriving alike (turnPlace member)]

theorem othersUnmoved (resting : ∀ entry ∈ s.clients, entry.2.Resting) (rests : other.Resting)
    (alike : ∀ c, (client, c) ∈ s.clients → other.arriving = c.arriving) (d : Dispatcher State) :
    others client ((s.replace client other).poll [] d).2.1 = others client (s.poll [] d).2.1 ∧
      ((s.replace client other).poll [] d).2.2 = (s.poll [] d).2.2 := by
  have restings : ∀ entry ∈ (s.replace client other).clients, entry.2.Resting := by
    refine List.forall_mem_map.2 fun entry member => ?_
    by_cases addressed : entry.1 = client
    · simp only [if_pos addressed]
      exact rests
    · simp only [if_neg addressed]
      exact resting entry member
  have replaced : turns (s.replace client other).clients d = _ := turnsReplace alike d
  refine ⟨?_, ?_⟩
  · simp only [pollExchange, accept, exchangeTurns restings, exchangeTurns resting, replaceQueued alike, others, flush,
      List.map_map]
    rw [replaced, List.map_map]
    refine othersSame fun t _ differs => ?_
    simp only [Turn.answered, Turn.polled, Turn.queued, if_neg differs]
  · simp only [pollExchange, accept, exchangeDispatcher restings, exchangeDispatcher resting]
    rw [replace, List.map_map]
    exact congrArg (List.foldl _ d) (List.map_congr_left fun entry member => swapArriving alike member)

end

/-- Every client that stays is queued its own replies and all broadcasts behind what it had; and of
one that is lost, here or when all is written, the others see no more than that it falls silent. -/
theorem framesRouted (limit : UInt32) (operations : List (Operation State)) (arrivals : List Arrival)
    (d : Dispatcher State) :
    let before := (History.run limit operations).server
    let s := (accept arrivals before).2
    let between := exchange s d
    (before.poll arrivals d).2 =
        ({ between.1.flush with clients := between.1.flush.clients.filter fun entry => entry.2.isOpen }, between.2) ∧
      List.Forall₂ (fun t entry => entry.1 = t.client ∧ t.Receives (broadcastsOf (turns s.clients d)) entry.2)
        (turns s.clients d) between.1.clients ∧
      ∀ client c, (client, c) ∈ s.clients → ∃ n, ∀ writes flushes,
        let silent := c.silenced n writes flushes
        let instead := (s.replace client silent).poll [] d
        silent.arriving = c.arriving ∧ silent.readLoss = none ∧
          others client instead.2.1 = others client (before.poll arrivals d).2.1 ∧
          instead.2.2 = (before.poll arrivals d).2.2 := by
  intro before s between
  have kept : History.Kept _ := (History.keptRun limit operations).accepted arrivals
  have sound : ∀ entry ∈ s.clients, entry.2.Sound := kept.sound
  have resting : ∀ entry ∈ s.clients, entry.2.Resting := fun entry member => (sound entry member).resting
  refine ⟨rfl, ?_, fun client c member => ?_⟩
  · rw [show between.1 = _ from exchangeTurns resting d]
    refine List.forall₂_map_right_iff.2 (List.forall₂_same.2 fun t member => ⟨rfl, answeredReceives ?_ _⟩)
    exact sound _ (turnPlace member)
  · obtain ⟨n, alike⟩ := Connection.silencedAlike (resting _ member)
    refine ⟨n, fun writes flushes => ?_⟩
    obtain ⟨rests, arriving, stays⟩ := alike writes flushes
    have only : ∀ other, (client, other) ∈ s.clients → (c.silenced n writes flushes).arriving = other.arriving := by
      intro other place
      have same : (client, c) = (client, other) :=
        List.inj_on_of_nodup_map kept.numbered.distinct member place rfl
      rw [arriving, (Prod.mk.inj same).2]
    exact ⟨arriving, stays, othersUnmoved resting rests only d⟩

theorem lostClientBroadcasts :
    let d := (Dispatcher.fresh .standard ()).register .battery fun m s out => ((out.send m).broadcast m, s)
    let frame := (Message.word .battery 742).encode
    let first : Arrival := ⟨⟨[.data (frame ++ [0, 0, 0, 1])], [], [], []⟩, "first"⟩
    let second : Arrival := ⟨⟨[.data frame], [], [], []⟩, "second"⟩
    let lost := Connection.fresh first.stream first.peer 64
    let before := (History.run 64 ([] : List (Operation Unit))).server
    let s := (accept [first, second] before).2
    let polled := (before.poll [first, second] d).2
    List.Forall₂ (fun t entry => entry.1 = t.client ∧ t.Receives (broadcastsOf (turns s.clients d)) entry.2)
        (turns s.clients d) (exchange s d).1.clients ∧
      (turns s.clients d).map Turn.queued = [⟨[frame], [frame]⟩, ⟨[frame], [frame]⟩] ∧
      lost.readLoss = some (FrameError.tooLarge 16777216 64).message ∧
      ∃ n, ∀ writes flushes, others ⟨0⟩ ((s.replace ⟨0⟩ (lost.silenced n writes flushes)).poll [] d).2.1 =
        others ⟨0⟩ polled.1 := by
  intro d frame first second lost before s polled
  obtain ⟨_, routed, isolated⟩ := framesRouted 64 [] [first, second] d
  have fatal : Connection.outlook (.fresh 64) first.stream.reads =
      ([.frame (Message.word .battery 742).frame], .tooLarge 16777216 []) := by cbv
  have member : (⟨0⟩, lost) ∈ s.clients := List.mem_cons_self
  obtain ⟨n, alike⟩ := isolated ⟨0⟩ lost member
  have loss : lost.readLoss = (Connection.outlook (.fresh 64) first.stream.reads).2.loss 64 none := rfl
  have heard : lost.arriving = [.frame (Message.word .battery 742).frame] := congrArg Prod.fst fatal
  have other : (Connection.fresh second.stream second.peer 64).arriving = [.frame (Message.word .battery 742).frame] := by
    cbv
  have queued : (turns s.clients d).map Turn.queued = [⟨[frame], [frame]⟩, ⟨[frame], [frame]⟩] := by
    have both : turns s.clients d = [⟨⟨0⟩, lost, d⟩,
      ⟨⟨1⟩, .fresh second.stream second.peer 64, (d.deliver lost.arriving .empty).2.2⟩] := rfl
    simp only [both, List.map_cons, List.map_nil, Turn.queued, heard, other]
    rfl
  rw [fatal] at loss
  exact ⟨routed, queued, loss, n, fun writes flushes => (alike writes flushes).2.2.1⟩

end Server

end RobotLink
