import RobotLink.Proofs.FrameLoop

/-! One chunk fed to a reassembler that has cut all it could. The pieces of what it holds and of
the chunk are dispatched, and it stands where they end; two such steps make one. -/
namespace RobotLink.Reassembler
variable {State : Type}

structure Idle (r : Reassembler) : Prop where
  alive : r.failed = none
  reported : r.drained = 0
  cut : pieces r.limit r.cursor r.buffer.toBytes = ([], .waiting r.cursor r.buffer.toBytes)

theorem idleFresh (limit : UInt32) : (fresh limit).Idle :=
  ⟨rfl, rfl, piecesOfNothing limit⟩

def joined (r : Reassembler) : Reassembler := { r with buffer := .ofBytes r.buffer.toBytes }

def past (r : Reassembler) (cut : List Piece) (report : Report) (cursor : Cursor) (rest : Bytes) : Reassembler :=
  { r with
    cursor, buffer := .ofBytes rest
    frames := r.frames + cut.countP Piece.isFrame
    discardedBytes := r.discardedBytes + report.discardedBytes }

theorem joinedFields {r u : Reassembler} (same : r.joined = u.joined) :
    r.limit = u.limit ∧ r.cursor = u.cursor ∧ r.buffer.toBytes = u.buffer.toBytes ∧ r.failed = u.failed := by
  have bytes := congrArg (ByteQueue.toBytes ∘ buffer) same
  simp only [Function.comp_apply, joined, ByteQueue.toBytesOfBytes] at bytes
  exact ⟨show r.joined.limit = u.joined.limit by rw [same], show r.joined.cursor = u.joined.cursor by rw [same], bytes,
    show r.joined.failed = u.joined.failed by rw [same]⟩

section
variable {r after : Reassembler} {cut : List Piece} {cursor : Cursor} {rest : Bytes} {report : Report}

theorem pastFields (stands : after.joined = r.past cut report cursor rest) :
    after.limit = r.limit ∧ after.cursor = cursor ∧ after.buffer.toBytes = rest := by
  have same : (r.past cut report cursor rest).joined = r.past cut report cursor rest := by
    simp only [joined, past, ByteQueue.toBytesOfBytes]
  obtain ⟨sameLimit, sameCursor, sameBytes, _⟩ := joinedFields (stands.trans same.symm)
  exact ⟨sameLimit, sameCursor, sameBytes.trans (ByteQueue.toBytesOfBytes rest)⟩

theorem pastTwice {later : List Piece} {more : Report} {last : Cursor} {unread : Bytes} {final : Reassembler}
    (first : after.joined = r.past cut report cursor rest) (next : final.joined = after.past later more last unread) :
    final.joined = r.past (cut ++ later) (report ++ more) last unread := by
  have same : after.past later more last unread = after.joined.past later more last unread := rfl
  rw [next, same, first]
  simp only [past, List.countP_append, Report.discardedBytesAppend, Nat.add_assoc]

end

section
variable {r : Reassembler} {chunk rest : Bytes} {cut : List Piece}

theorem feedPasses {cursor : Cursor} (idle : r.Idle)
    (h : pieces r.limit r.cursor (r.buffer.toBytes ++ chunk) = (cut, .waiting cursor rest))
    (d : Dispatcher State) (out : Outbox) :
    ∃ after : Reassembler,
      r.feed chunk d out = (.ok (d.deliver cut out).1, after, (d.deliver cut out).2) ∧
      after.Idle ∧ after.joined = r.past cut (d.deliver cut out).1 cursor rest := by
  have longer : pieces (r.extend chunk).limit (r.extend chunk).cursor (r.extend chunk).buffer.toBytes =
      (cut, .waiting cursor rest) := by
    simp only [extend, ByteQueue.toBytesPush]
    exact h
  have bytes := keptToBytes longer
  refine ⟨(r.extend chunk).afterCut cut (d.deliver cut out).1 cursor rest, ?_, ⟨idle.alive, rfl, ?_⟩, ?_⟩
  · have none : Report.ofEmpty (r.extend chunk).drained = .none := by rw [extend, idle.reported]; rfl
    rw [feed, processWaiting (show (r.extend chunk).failed = .none from idle.alive) longer, none,
      Report.noneAppend]
  · simp only [afterCut, bytes]
    exact piecesOfWaiting longer
  · have none : r.drained = 0 := idle.reported
    simp only [joined, afterCut, bytes]
    simp only [past, extend, none]

theorem feedBreaks {size : UInt32} (idle : r.Idle)
    (h : pieces r.limit r.cursor (r.buffer.toBytes ++ chunk) = (cut, .tooLarge size rest)) (d : Dispatcher State)
    (out : Outbox) :
    ∃ after : Reassembler,
      r.feed chunk d out = (.error (.tooLarge size r.limit), after, (d.deliver cut out).2) ∧
      after.failed = some (.tooLarge size r.limit) ∧ after.cursor = .needLength ∧ after.buffer.toBytes = rest := by
  have longer : pieces (r.extend chunk).limit (r.extend chunk).cursor (r.extend chunk).buffer.toBytes =
      (cut, .tooLarge size rest) := by
    simp only [extend, ByteQueue.toBytesPush]
    exact h
  refine ⟨_, processTooLarge (show (r.extend chunk).failed = none from idle.alive) longer d out, rfl, rfl, ?_⟩
  exact ByteQueue.toBytesOfBytes rest

end

end RobotLink.Reassembler
