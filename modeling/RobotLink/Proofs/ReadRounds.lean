import RobotLink.Proofs.Connections
import RobotLink.Proofs.Feeding

/-! One round of reads. The answers of the stream up to the one that ends the round come down to
the bytes that they bring; what a poll dispatches, and whether it loses the connection, follows
from those bytes and not from the pieces they came in. -/
namespace RobotLink

namespace Stream

def unread : List ReadResult → Bytes
  | [] => []
  | .data bytes :: reads => bytes ++ unread reads
  | _ :: reads => unread reads

def Arriving (reads : List ReadResult) : Prop :=
  ∀ result ∈ reads, result = .wouldBlock ∨ result = .interrupted ∨ ∃ b bytes, result = .data (b :: bytes)

structure Intake where
  bytes : Bytes
  lost : Option String
  later : List ReadResult
  deriving DecidableEq, Repr

def intake : List ReadResult → Intake
  | [] => ⟨[], none, []⟩
  | .wouldBlock :: reads => ⟨[], none, reads⟩
  | .interrupted :: reads => intake reads
  | .failed message :: reads => ⟨[], some message, reads⟩
  | .endOfStream :: reads | .data [] :: reads => ⟨[], some "closed by peer", reads⟩
  | .data (b :: bytes) :: reads => { intake reads with bytes := b :: bytes ++ (intake reads).bytes }

theorem intakeKeep (bytes : Bytes) (reads : List ReadResult) :
    intake (keep bytes reads) = { intake reads with bytes := bytes ++ (intake reads).bytes } := by
  cases bytes <;> rfl

inductive ReadStep (reads : List ReadResult) : ReadResult × List ReadResult → Prop
  | blocks {later : List ReadResult} (same : intake reads = ⟨[], none, later⟩) : ReadStep reads (.wouldBlock, later)
  | interrupted {later : List ReadResult} (same : intake reads = intake later) : ReadStep reads (.interrupted, later)
  | ends {later : List ReadResult} (same : intake reads = ⟨[], some "closed by peer", later⟩) :
      ReadStep reads (.endOfStream, later)
  | fails {message : String} {later : List ReadResult} (same : intake reads = ⟨[], some message, later⟩) :
      ReadStep reads (.failed message, later)
  | brings {bytes : Bytes} {later : List ReadResult}
      (same : intake reads = { intake later with bytes := bytes ++ (intake later).bytes }) :
      ReadStep reads (.data bytes, later)

theorem readStep (reads : List ReadResult) : ReadStep reads (read reads) := by
  match reads with
  | [] => exact .blocks rfl
  | .wouldBlock :: reads => exact .blocks rfl
  | .interrupted :: reads => exact .interrupted rfl
  | .endOfStream :: reads => exact .ends rfl
  | .failed message :: reads => exact .fails rfl
  | .data [] :: reads => exact .ends rfl
  | .data (b :: bytes) :: reads =>
    refine .brings ?_
    rw [intakeKeep, ← List.append_assoc, List.take_append_drop]
    rfl

end Stream

theorem dividedPieces {limit : UInt32} {before : Cursor} {stream more : Bytes} {cut : List Piece} {tail : Tail}
    (h : pieces limit before (stream ++ more) = (cut, tail)) :
    ∃ first later between, pieces limit before stream = (first, between) ∧ cut = first ++ later ∧
      between.resume limit more = (later, tail) := by
  rw [piecesAppend] at h
  obtain ⟨same, ending⟩ := Prod.mk.inj h
  exact ⟨_, _, _, rfl, same.symm, Prod.ext rfl ending⟩

def Tail.loss (limit : UInt32) (otherwise : Option String) : Tail → Option String
  | .tooLarge size _ => some (FrameError.tooLarge size limit).message
  | .waiting _ _ => otherwise

namespace Connection
variable {State : Type}

structure Received.Meets (y : Received State) (r : Reassembler) (d : Dispatcher State) (out : Outbox)
    (x : Stream.Intake) (cut : List Piece) (tail : Tail) : Prop where
  outbox : y.outbox = (d.deliver cut out).2.1
  dispatcher : y.dispatcher = (d.deliver cut out).2.2
  lost : y.lost = tail.loss r.limit x.lost
  stays : ∀ cursor rest, tail = .waiting cursor rest →
    y.report = (d.deliver cut out).1 ∧ y.reads = x.later ∧ y.cursor.Idle ∧
      y.cursor.joined = r.past cut (d.deliver cut out).1 cursor rest

section
variable {reads : List ReadResult} {r : Reassembler} {d : Dispatcher State} {out : Outbox} {cut : List Piece}
  {tail : Tail}

theorem endedMeets {lost : Option String} {later : List ReadResult} (idle : r.Idle)
    (ended : Stream.intake reads = ⟨[], lost, later⟩)
    (h : pieces r.limit r.cursor (r.buffer.toBytes ++ (Stream.intake reads).bytes) = (cut, tail)) :
    Received.Meets ⟨lost, .none, later, r, out, d⟩ r d out (Stream.intake reads) cut tail := by
  rw [ended, List.append_nil, idle.cut] at h
  cases h
  rw [ended]
  refine ⟨rfl, rfl, rfl, fun cursor rest same => ?_⟩
  cases same
  exact ⟨rfl, rfl, idle, rfl⟩

theorem Received.Meets.behind {after : Reassembler} {y : Received State} {x : Stream.Intake} {bytes rest : Bytes}
    {first : List Piece} {cursor : Cursor} (stands : after.joined = r.past first (d.deliver first out).1 cursor rest)
    (next : y.Meets after (d.deliver first out).2.2 (d.deliver first out).2.1 x cut tail) :
    Received.Meets { y with report := (d.deliver first out).1 ++ y.report } r d out { x with bytes := bytes ++ x.bytes }
      (first ++ cut) tail := by
  obtain ⟨sameLimit, _, _⟩ := Reassembler.pastFields stands
  refine ⟨?_, ?_, ?_, fun last unread same => ?_⟩
  · rw [Dispatcher.deliverAppend, next.outbox]
  · rw [Dispatcher.deliverAppend, next.dispatcher]
  · rw [← sameLimit]
    exact next.lost
  · obtain ⟨report, reads, idle, final⟩ := next.stays last unread same
    rw [Dispatcher.deliverAppend]
    exact ⟨congrArg ((d.deliver first out).1 ++ ·) report, reads, idle, Reassembler.pastTwice stands final⟩

theorem receiveMeets (idle : r.Idle)
    (h : pieces r.limit r.cursor (r.buffer.toBytes ++ (Stream.intake reads).bytes) = (cut, tail)) :
    (receive reads r d out).Meets r d out (Stream.intake reads) cut tail := by
  -- A read ends the round, brings nothing, or brings bytes that divide what is cut in all.
  fun_induction receive reads r d out generalizing cut tail with
  | case1 reads r d out later answer =>
    have step := Stream.readStep reads
    rw [answer] at step
    cases step with
    | blocks same => exact endedMeets idle same h
  | case2 reads r d out later answer =>
    have step := Stream.readStep reads
    rw [answer] at step
    cases step with
    | ends same => exact endedMeets idle same h
  | case3 reads r d out later message answer =>
    have step := Stream.readStep reads
    rw [answer] at step
    cases step with
    | fails same => exact endedMeets idle same h
  | case4 reads r d out later answer _ ih =>
    have step := Stream.readStep reads
    rw [answer] at step
    cases step with
    | interrupted same =>
      rw [same] at h ⊢
      exact ih idle h
  | case5 reads r d out bytes later answer _ report after left e fed x =>
    rename_i ih
    have step := Stream.readStep reads
    rw [answer] at step
    cases step with
    | brings same =>
      rw [same, ← List.append_assoc] at h
      obtain ⟨first, more, between, here, rfl, ahead⟩ := dividedPieces h
      cases between with
      | tooLarge size rest =>
        obtain ⟨_, broke, _⟩ := Reassembler.feedBreaks idle here d out
        rw [fed] at broke
        cases broke
      | waiting between unread =>
        obtain ⟨_, passed, idle, stands⟩ := Reassembler.feedPasses idle here d out
        rw [fed] at passed
        simp only [Prod.ext_iff, Except.ok.injEq] at passed
        obtain ⟨rfl, rfl, rfl, rfl⟩ := passed
        obtain ⟨sameLimit, sameCursor, sameBytes⟩ := Reassembler.pastFields stands
        rw [same]
        refine Received.Meets.behind stands (ih idle ?_)
        rw [sameLimit, sameCursor, sameBytes]
        exact ahead
  | case6 reads r d out bytes later answer _ error after left e fed =>
    have step := Stream.readStep reads
    rw [answer] at step
    cases step with
    | brings same =>
      rw [same, ← List.append_assoc] at h
      obtain ⟨first, more, between, here, rfl, ahead⟩ := dividedPieces h
      cases between with
      | waiting between unread =>
        obtain ⟨_, passed, _⟩ := Reassembler.feedPasses idle here d out
        rw [fed] at passed
        cases passed
      | tooLarge size rest =>
        obtain ⟨_, broke, _⟩ := Reassembler.feedBreaks idle here d out
        rw [fed] at broke
        simp only [Prod.ext_iff, Except.error.injEq] at broke
        obtain ⟨rfl, rfl, rfl, rfl⟩ := broke
        cases ahead
        rw [List.append_nil]
        exact ⟨rfl, rfl, rfl, fun cursor rest same => Tail.noConfusion same⟩

end

def outlook (r : Reassembler) (reads : List ReadResult) : List Piece × Tail :=
  pieces r.limit r.cursor (r.buffer.toBytes ++ (Stream.intake reads).bytes)

def arriving (c : Connection) : List Piece :=
  match c.cursor with
  | none => []
  | some r => (outlook r c.stream.reads).1

def readLoss (c : Connection) : Option String :=
  match c.cursor with
  | none => none
  | some r => (outlook r c.stream.reads).2.loss r.limit (Stream.intake c.stream.reads).lost

def Resting (c : Connection) : Prop := ∀ r, c.cursor = some r → r.Idle

section
variable {c : Connection}

theorem receiveOutlook {r : Reassembler} (resting : c.Resting) (cursor : c.cursor = some r) (d : Dispatcher State)
    (out : Outbox) :
    (receive c.stream.reads r d out).Meets r d out (Stream.intake c.stream.reads) (outlook r c.stream.reads).1
      (outlook r c.stream.reads).2 := receiveMeets (resting r cursor) rfl

theorem pollDelivers (resting : c.Resting) (d : Dispatcher State) (out : Outbox) :
    (c.poll d out).2.2 = (d.deliver c.arriving out).2 := by
  have step := c.pollStep d out
  generalize c.poll d out = polled at step ⊢
  cases step with
  | gone gone => simp only [arriving, gone]; rfl
  | @lost r _ cursor | @stays r cursor =>
    have meets := receiveOutlook resting cursor d out
    simp only [arriving, cursor]
    rw [meets.outbox, meets.dispatcher]

theorem pollLoses {reason : String} (resting : c.Resting) (loss : c.readLoss = some reason) (d : Dispatcher State)
    (out : Outbox) :
    ∃ reads, c.poll d out = (.lost reason,
      { c with stream := { c.stream with reads }, cursor := none, pending := .empty, lost := some reason },
      (d.deliver c.arriving out).2) := by
  have delivers := pollDelivers resting d out
  have step := c.pollStep d out
  generalize c.poll d out = polled at step delivers ⊢
  cases step with
  | gone gone => simp [readLoss, gone] at loss
  | @lost r other cursor lost =>
    have meets := receiveOutlook resting cursor d out
    simp only [readLoss, cursor] at loss
    rw [meets.lost, loss] at lost
    cases lost
    exact ⟨_, Prod.ext rfl (Prod.ext rfl delivers)⟩
  | @stays r cursor stays =>
    have meets := receiveOutlook resting cursor d out
    simp only [readLoss, cursor] at loss
    rw [meets.lost, loss] at stays
    cases stays

theorem pollStays {r : Reassembler} (resting : c.Resting) (cursor : c.cursor = some r) (stays : c.readLoss = none)
    (d : Dispatcher State) (out : Outbox) :
    ∃ next last rest, outlook r c.stream.reads = (c.arriving, .waiting last rest) ∧ next.Idle ∧
      next.joined = r.past c.arriving (d.deliver c.arriving out).1 last rest ∧
      c.poll d out = (if (d.deliver c.arriving out).1.frames = 0 then .idle else .data (d.deliver c.arriving out).1,
        { c with stream := { c.stream with reads := (Stream.intake c.stream.reads).later }, cursor := some next },
        (d.deliver c.arriving out).2) := by
  have meets := receiveOutlook resting cursor d out
  have arrives : c.arriving = (outlook r c.stream.reads).1 := by simp only [arriving, cursor]
  simp only [readLoss, cursor] at stays
  rcases ahead : outlook r c.stream.reads with ⟨cut, tail⟩
  rw [ahead] at stays arrives
  rw [ahead] at meets
  cases tail with
  | tooLarge size rest => cases stays
  | waiting last rest =>
    obtain ⟨report, reads, idle, stands⟩ := meets.stays last rest rfl
    refine ⟨_, last, rest, by rw [arrives], idle, arrives ▸ stands, ?_⟩
    rw [arrives]
    have alive : (receive c.stream.reads r d out).lost = none := meets.lost.trans stays
    simp only [poll, cursor, alive, report, reads, meets.outbox, meets.dispatcher]

inductive PollEnds (c : Connection) (d : Dispatcher State) (out : Outbox) :
    ConnectionEvent × Connection × Outbox × Dispatcher State → Prop
  | gone (gone : c.cursor = none) : PollEnds c d out (.lost (c.lost.getD "connection closed"), c, out, d)
  | loses {reason reads} (isOpen : c.isOpen) (loss : c.readLoss = some reason) :
      PollEnds c d out (.lost reason,
        { c with stream := { c.stream with reads }, cursor := none, pending := .empty, lost := some reason },
        (d.deliver c.arriving out).2)
  | stays {r next last rest reads} (cursor : c.cursor = some r) (stays : c.readLoss = none)
      (ahead : outlook r c.stream.reads = (c.arriving, .waiting last rest)) (idle : next.Idle)
      (stands : next.joined = r.past c.arriving (d.deliver c.arriving out).1 last rest) :
      PollEnds c d out (if (d.deliver c.arriving out).1.frames = 0 then .idle else .data (d.deliver c.arriving out).1,
        { c with stream := { c.stream with reads }, cursor := some next }, (d.deliver c.arriving out).2)

theorem pollEnds (resting : c.Resting) (d : Dispatcher State) (out : Outbox) : PollEnds c d out (c.poll d out) := by
  cases cursor : c.cursor with
  | none =>
    simp only [poll, cursor]
    exact .gone cursor
  | some r =>
    cases loss : c.readLoss with
    | some reason =>
      obtain ⟨reads, same⟩ := pollLoses resting loss d out
      rw [same]
      exact .loses (by rw [isOpen, cursor]; rfl) loss
    | none =>
      obtain ⟨next, last, rest, ahead, idle, stands, same⟩ := pollStays resting cursor loss d out
      rw [same]
      exact .stays cursor loss ahead idle stands

end

end Connection

end RobotLink
