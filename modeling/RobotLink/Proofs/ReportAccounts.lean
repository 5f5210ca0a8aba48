import Mathlib
import RobotLink.Proofs.FrameVerdicts
import RobotLink.Proofs.PartialDelivery

/-! The books of a reassembler. The bytes of a stream are those of the frames cut from it and those
still held, to the last one; a report counts each of these frames once and lists what was lost of them
in their order, and every counter grows by what the report says. -/
namespace RobotLink

def Cursor.remembered : Cursor → Bytes
  | .needLength => []
  | .needPayload length => Payload.putCount length.toNat

def Cursor.ahead : Cursor → Nat
  | .needLength => 0
  | .needPayload _ => Frame.prefixLength

theorem Cursor.lengthOfRemembered (cursor : Cursor) : cursor.remembered.length = cursor.ahead := by
  cases cursor with
  | needLength => rfl
  | needPayload length => exact Read.lengthPutCount length.toNat

namespace Piece

def encode : Piece → Bytes
  | .empty => Payload.putCount 0
  | .frame f => f.encode

def bodyLength : Piece → Nat
  | .empty => 0
  | .frame f => f.bodyLength

def loss (widths : WidthTable) : Piece → Option Discard
  | .empty => some .ofEmpty
  | .frame f => f.loss widths

def wireLength : List Piece → Nat
  | [] => 0
  | piece :: rest => Frame.prefixLength + piece.bodyLength + wireLength rest

def asked (passed : Nat) (found : Option Frame) : List Piece :=
  List.replicate passed .empty ++ (found.map Piece.frame).toList

theorem lengthOfEncode (piece : Piece) : piece.encode.length = Frame.prefixLength + piece.bodyLength := by
  cases piece with
  | empty => rfl
  | frame f =>
    rw [encode, Frame.encode, List.length_append, Read.lengthPutCount, List.length_cons, bodyLength, Frame.bodyLength,
      Frame.prefixLength, Nat.add_comm f.payload.length]

theorem lengthOfEncodes (cut : List Piece) : (cut.flatMap encode).length = wireLength cut := by
  induction cut with
  | nil => rfl
  | cons piece rest ih => rw [List.flatMap_cons, List.length_append, ih, lengthOfEncode, wireLength]

end Piece

def Cut.wire : Cut → Bytes
  | .wait cursor rest => cursor.remembered ++ rest
  | .tooLarge size rest => Payload.putCount size.toNat ++ rest
  | .empty rest => Piece.empty.encode ++ rest
  | .frame f rest => f.encode ++ rest

def Tail.wire : Tail → Bytes
  | .waiting cursor rest => cursor.remembered ++ rest
  | .tooLarge size rest => Payload.putCount size.toNat ++ rest

namespace Cut

theorem bodyWire (length : UInt32) (stream : Bytes) :
    Payload.putCount length.toNat ++ stream = (body length stream).wire := by
  unfold body
  split
  next => rfl
  next split =>
    obtain ⟨rfl, none⟩ := Bytes.splitSome.1 split
    rw [← none]
    rfl
  next opcode payload rest split =>
    obtain ⟨rfl, whole⟩ := Bytes.splitSome.1 split
    have same : Frame.bodyLength ⟨opcode, payload⟩ = length.toNat := (Nat.add_comm _ _).trans whole
    rw [wire, Frame.encode, same, List.append_assoc]

theorem putReadCount {head : Bytes} (four : head.length = Frame.prefixLength) :
    Payload.putCount (Bytes.toNat head).toUInt32.toNat = head := by
  have small := Bytes.toNatLt head
  have back := Bytes.ofNatToNat head
  rw [four] at small back
  rw [Payload.putCount, UInt32.toNat_ofNat_of_lt' small]
  exact back

theorem nextWire (limit : UInt32) (cursor : Cursor) (stream : Bytes) :
    cursor.remembered ++ stream = (next limit cursor stream).wire := by
  cases cursor with
  | needPayload length => exact bodyWire length stream
  | needLength =>
    simp only [next]
    split
    next => rfl
    next head tail split =>
      obtain ⟨rfl, four⟩ := Bytes.splitSome.1 split
      have read := putReadCount four
      split
      next => exact congrArg (· ++ tail) read.symm
      next =>
        rw [← bodyWire, read]
        rfl

theorem bodyFits {length : UInt32} {stream rest : Bytes} {f : Frame} (h : body length stream = .frame f rest) :
    f.Fits := by
  unfold body at h
  split at h
  next => cases h
  next => cases h
  next split =>
    obtain ⟨_, whole⟩ := Bytes.splitSome.1 split
    cases h
    have small : length.toNat < UInt32.size := length.toNat_lt
    rw [← whole, List.length_cons, Nat.add_comm] at small
    exact small

theorem nextFits {limit : UInt32} {cursor : Cursor} {stream rest : Bytes} {f : Frame}
    (h : next limit cursor stream = .frame f rest) : f.Fits := by
  cases cursor with
  | needPayload length => exact bodyFits h
  | needLength =>
    simp only [next] at h
    split at h
    next => cases h
    next =>
      split at h
      next => cases h
      next => exact bodyFits h

end Cut

theorem piecesWire (limit : UInt32) (cursor : Cursor) (stream : Bytes) :
    cursor.remembered ++ stream =
      (pieces limit cursor stream).1.flatMap Piece.encode ++ (pieces limit cursor stream).2.wire := by
  fun_induction pieces limit cursor stream with
  | case1 cursor stream after rest cut | case2 cursor stream size rest cut =>
    rw [Cut.nextWire limit, cut]
    rfl
  | case3 cursor stream rest cut less later tail ahead ih | case4 cursor stream f rest cut less later tail ahead ih =>
    rw [ahead] at ih
    rw [Cut.nextWire limit, cut, List.flatMap_cons, List.append_assoc, ← ih]
    rfl

theorem piecesFit (limit : UInt32) (cursor : Cursor) (stream : Bytes) :
    ∀ f ∈ framesOf (pieces limit cursor stream).1, f.Fits := by
  fun_induction pieces limit cursor stream with
  | case1 | case2 => exact nofun
  | case3 cursor stream rest cut less later tail ahead ih =>
    rw [ahead] at ih
    exact ih
  | case4 cursor stream f rest cut less later tail ahead ih =>
    rw [ahead] at ih
    exact List.forall_mem_cons.2 ⟨Cut.nextFits cut, ih⟩

def Report.count (r : Report) (reason : DiscardReason) : Nat := r.discards.countP (·.reason = reason)

def Report.unread (r : Report) : Nat :=
  r.count .empty + r.count .unknownOpcode + r.count .missingWidth + r.count .malformed

theorem Report.countAppend (a b : Report) (reason : DiscardReason) :
    (a ++ b).count reason = a.count reason + b.count reason := List.countP_append

theorem Report.unreadAppend (a b : Report) : (a ++ b).unread = a.unread + b.unread := by
  simp only [unread, countAppend]
  omega

theorem Report.countOfEmpty (n : Nat) : (ofEmpty n).count .empty = n := by
  rw [count, ofEmpty, List.countP_replicate]
  rfl

theorem Report.unreadOfEmpty (n : Nat) : (ofEmpty n).unread = n := by
  have others {reason : DiscardReason} (other : DiscardReason.empty ≠ reason) : (ofEmpty n).count reason = 0 := by
    rw [count, ofEmpty, List.countP_replicate]
    exact if_neg fun same => other (of_decide_eq_true same)
  have unknown : (ofEmpty n).count .unknownOpcode = 0 := others (by decide)
  have unmeasured : (ofEmpty n).count .missingWidth = 0 := others (by decide)
  have malformed : (ofEmpty n).count .malformed = 0 := others (by decide)
  simp only [unread, countOfEmpty, unknown, unmeasured, malformed, Nat.add_zero]

def messagesRead : Except DispatchError Nat → Nat
  | .ok _ => 1
  | .error _ => 0

theorem Frame.discardCounts (f : Frame) (result : Except DispatchError Nat) :
    (Report.mk 1 (f.discard? result).toList).count .empty = 0 ∧
      messagesRead result + (Report.mk 1 (f.discard? result).toList).unread = 1 := by
  rcases result with e | consumed
  · cases e <;> exact ⟨rfl, rfl⟩
  · by_cases less : consumed < f.payload.length
    · simp only [discard?, if_pos less]
      exact ⟨rfl, rfl⟩
    · simp only [discard?, if_neg less]
      exact ⟨rfl, rfl⟩

namespace Dispatcher
variable {State : Type} {d : Dispatcher State}

theorem afterWidths (d : Dispatcher State) (out : Outbox) (piece : Piece) :
    (d.after out piece).2.widths = d.widths := by
  obtain ⟨s, n, same⟩ := d.afterRegistered out piece
  rw [same]

theorem outcomeLoss (d : Dispatcher State) (piece : Piece) : (d.outcome piece).discard = piece.loss d.widths := by
  cases piece with
  | empty => rfl
  | frame f =>
    have fresh : d.widths = (Dispatcher.fresh d.widths ()).widths := rfl
    exact congrArg f.discard? (dispatchResult fresh f .empty .empty)

theorem deliverLoss (cut : List Piece) (d : Dispatcher State) (out : Outbox) :
    (d.deliver cut out).1.discards = cut.filterMap (Piece.loss d.widths) := by
  induction cut generalizing d out with
  | nil => rfl
  | cons piece rest ih =>
    have later := ih (d.after out piece).2 (d.after out piece).1
    rw [afterWidths] at later
    rw [deliverCons, outcomeLoss, List.filterMap_cons]
    change (piece.loss d.widths).toList ++ _ = _
    rw [later]
    cases piece.loss d.widths <;> rfl

theorem dispatchCounts (d : Dispatcher State) (f : Frame) (out : Outbox) :
    (d.dispatch f out).2.2.dispatched = d.dispatched + messagesRead (d.dispatch f out).1 := by
  unfold dispatch
  split
  next => rfl
  next => split <;> rfl

theorem countedPiece (d : Dispatcher State) (piece : Piece) :
    [piece].countP Piece.isFrame + (Report.mk 1 (d.outcome piece).discard.toList).count .empty = 1 := by
  cases piece with
  | empty => rfl
  | frame f => exact congrArg (1 + ·) (f.discardCounts (d.dispatch f .empty).1).1

theorem readPiece (d : Dispatcher State) (out : Outbox) (piece : Piece) :
    (d.after out piece).2.dispatched + (Report.mk 1 (d.outcome piece).discard.toList).unread = d.dispatched + 1 := by
  cases piece with
  | empty => rfl
  | frame f =>
    have read := (f.discardCounts (d.dispatch f out).1).2
    rw [after, dispatchCounts, outcome, dispatchResult rfl f .empty out, Nat.add_assoc, read]

theorem deliverCounted (cut : List Piece) (d : Dispatcher State) (out : Outbox) :
    cut.countP Piece.isFrame + (d.deliver cut out).1.count .empty = cut.length := by
  induction cut generalizing d out with
  | nil => rfl
  | cons piece rest ih =>
    have here := d.countedPiece piece
    have later := ih (d.after out piece).2 (d.after out piece).1
    rw [deliverCons, Report.countAppend, ← List.singleton_append, List.countP_append, List.length_append,
      List.length_singleton]
    omega

theorem deliverRead (cut : List Piece) (d : Dispatcher State) (out : Outbox) :
    (d.deliver cut out).2.2.dispatched + (d.deliver cut out).1.unread = d.dispatched + cut.length := by
  induction cut generalizing d out with
  | nil => rfl
  | cons piece rest ih =>
    have here := d.readPiece out piece
    have later := ih (d.after out piece).2 (d.after out piece).1
    simp only [deliverCons, Report.unreadAppend, List.length_cons]
    omega

end Dispatcher

namespace Reassembler
variable {State : Type}

def held (r : Reassembler) : Bytes := r.cursor.remembered ++ r.buffer.toBytes

theorem lengthOfHeld (r : Reassembler) : r.held.length = r.buffer.size + r.cursor.ahead := by
  rw [held, List.length_append, Cursor.lengthOfRemembered, ByteQueue.sizeEq, Nat.add_comm]

theorem heldExtend (r : Reassembler) (bytes : Bytes) : (r.extend bytes).held = r.held ++ bytes := by
  rw [held, held, List.append_assoc, extend, ByteQueue.toBytesPush]

structure Accounts (r : Reassembler) (d : Dispatcher State) (out : Outbox) (bytes : Bytes) (cut : List Piece)
    (report : Report) (after : Reassembler) (e : Dispatcher State) : Prop where
  wire : r.held ++ bytes = cut.flatMap Piece.encode ++ after.held
  conserved : r.buffer.size + bytes.length + r.cursor.ahead =
    Piece.wireLength cut + after.buffer.size + after.cursor.ahead
  met : ((r.extend bytes).processEach d out).1 = framesOf cut
  reported : report.frames = r.drained + cut.length
  listed : report.discards = List.replicate r.drained .ofEmpty ++ cut.filterMap (Piece.loss d.widths)
  judged : ∀ f ∈ framesOf cut, f.Judged d.widths (f.loss d.widths)
  frames : after.frames + report.count .empty = r.frames + report.frames
  dispatched : e.dispatched + report.unread = d.dispatched + report.frames
  discardedBytes : after.discardedBytes = r.discardedBytes + report.discardedBytes
  cleared : after.drained = 0

structure Passes (r : Reassembler) (found : Option Frame) (passed : Nat) (after : Reassembler) : Prop where
  wire : r.held = (Piece.asked passed found).flatMap Piece.encode ++ after.held
  drained : after.drained = r.drained + passed
  frames : after.frames = r.frames + found.toList.length
  discardedBytes : after.discardedBytes = r.discardedBytes

section
variable {r after : Reassembler} {d e : Dispatcher State} {report : Report} {out left : Outbox}

theorem processReports (h : r.process d out = (.ok report, after, left, e)) :
    ∃ cut cursor rest, r.failed = none ∧ pieces r.limit r.cursor r.buffer.toBytes = (cut, .waiting cursor rest) ∧
      report = .ofEmpty r.drained ++ (d.deliver cut out).1 ∧ after = r.afterCut cut (d.deliver cut out).1 cursor rest ∧
      e = (d.deliver cut out).2.2 := by
  have step := processStep r d out
  generalize same : r.process d out = processed at step
  cases step with
  | latched | tooLarge => cases h.symm.trans same
  | waiting alive here =>
    have done := same.symm.trans h
    simp only [Prod.mk.injEq, Except.ok.injEq] at done
    obtain ⟨rfl, rfl, done⟩ := done
    exact ⟨_, _, _, alive, here, rfl, rfl, (congrArg Prod.snd done).symm⟩

theorem conservedOf {bytes : Bytes} {cut : List Piece} (wire : r.held ++ bytes = cut.flatMap Piece.encode ++ after.held) :
    r.buffer.size + bytes.length + r.cursor.ahead =
      Piece.wireLength cut + after.buffer.size + after.cursor.ahead := by
  have sizes := congrArg List.length wire
  rw [List.length_append, List.length_append, lengthOfHeld, lengthOfHeld, Piece.lengthOfEncodes] at sizes
  omega

theorem afterCutHeld {cut : List Piece} {cursor : Cursor} {rest : Bytes}
    (h : pieces r.limit r.cursor r.buffer.toBytes = (cut, .waiting cursor rest)) (report : Report) :
    r.held = cut.flatMap Piece.encode ++ (r.afterCut cut report cursor rest).held := by
  have whole := piecesWire r.limit r.cursor r.buffer.toBytes
  rw [h] at whole
  rw [held, whole, held, afterCut, keptToBytes h]
  rfl

theorem outlookNoMore (r : Reassembler) : (r.extend []).outlook = r.outlook := by
  simp only [outlook, extend, ByteQueue.toBytesPush, List.append_nil]

theorem processAccounts (h : r.process d out = (.ok report, after, left, e)) :
    ∃ cut, r.Accounts d out [] cut report after e := by
  obtain ⟨cut, cursor, rest, alive, here, rfl, rfl, rfl⟩ := processReports h
  have wire := afterCutHeld here (d.deliver cut out).1
  rw [← List.append_nil r.held] at wire
  have reported : (Report.ofEmpty r.drained ++ (d.deliver cut out).1).frames = r.drained + cut.length :=
    congrArg (r.drained + ·) (Dispatcher.deliverFrames cut d out)
  have counted := Dispatcher.deliverCounted cut d out
  have read := Dispatcher.deliverRead cut d out
  refine ⟨cut, ⟨wire, conservedOf wire, ?_, reported, ?_, ?_, ?_, ?_, ?_, rfl⟩⟩
  · rw [processMeets, outlookNoMore, outlookAlive alive here]
  · exact congrArg (List.replicate r.drained .ofEmpty ++ ·) (Dispatcher.deliverLoss cut d out)
  · intro f member
    have fits := piecesFit r.limit r.cursor r.buffer.toBytes
    rw [here] at fits
    exact Frame.judged d.widths (fits f member)
  · simp only [Report.countAppend, Report.countOfEmpty, reported, afterCut]
    omega
  · rw [Report.unreadAppend, Report.unreadOfEmpty, reported]
    omega
  · rw [Report.discardedBytesAppend, Report.discardedBytesOfEmpty, Nat.zero_add, afterCut]

theorem Accounts.extended {bytes : Bytes} {cut : List Piece} (h : (r.extend bytes).Accounts d out [] cut report after e) :
    r.Accounts d out bytes cut report after e := by
  have wire := h.wire
  rw [List.append_nil, heldExtend] at wire
  refine ⟨wire, conservedOf wire, ?_, h.reported, h.listed, h.judged, h.frames, h.dispatched, h.discardedBytes,
    h.cleared⟩
  have met := h.met
  rw [processMeets, outlookNoMore] at met
  rw [processMeets, met]

theorem nextPasses {found : Option Frame} (h : r.next = (.ok found, after)) :
    ∃ passed, r.Passes found passed after := by
  have step := nextStep r
  have whole := piecesWire r.limit r.cursor r.buffer.toBytes
  rw [h] at step
  cases step with
  | @waiting passed _ _ _ cut =>
    rw [cut] at whole
    refine ⟨passed, ?_, rfl, rfl, rfl⟩
    rw [held, whole, Piece.asked, held, keptToBytes cut, Option.map_none, Option.toList_none, List.append_nil]
    rfl
  | @frame passed f rest _ cut =>
    have ahead := piecesWire r.limit .needLength rest
    have later : (r.afterFrame passed rest).held = Cursor.needLength.remembered ++ rest :=
      congrArg (Cursor.needLength.remembered ++ ·) (ByteQueue.toBytesOfBytes rest)
    rw [cut] at whole
    refine ⟨passed, ?_, rfl, rfl, rfl⟩
    change r.held = _ ++ (r.afterFrame passed rest).held
    rw [later, ahead, held, whole, ← List.append_assoc, ← List.flatMap_append, Piece.asked, Option.map_some,
      Option.toList_some, List.append_assoc, List.singleton_append]

/-- Every report and every frame asked for is accounted for, from any state and whatever was left over. -/
theorem reportsAccount (r : Reassembler) (d : Dispatcher State) (out : Outbox) :
    (∀ report after left e, r.process d out = (.ok report, after, left, e) →
      ∃ cut, r.Accounts d out [] cut report after e) ∧
    (∀ bytes report after left e, r.feed bytes d out = (.ok report, after, left, e) →
      ∃ cut, r.Accounts d out bytes cut report after e) ∧
    ∀ found after, r.next = (.ok found, after) → ∃ passed, r.Passes found passed after :=
  ⟨fun _ _ _ _ => processAccounts, fun _ _ _ _ _ done => (processAccounts done).imp fun _ => Accounts.extended,
    fun _ _ => nextPasses⟩

theorem everyLossAccounted :
    let r := ((fresh 64).extend [0, 0, 0, 0, 3, 0, 0, 0, 5]).next.2
    let d := Dispatcher.fresh (WidthTable.standard.remove .mic) ()
    let bytes : Bytes := [230, 2, 0, 0, 0, 0, 2, 0, 0, 0, 33, 7, 1, 0, 0, 0, 99, 2, 0, 0, 0, 32, 1, 3, 0, 0, 0, 19, 1, 2,
      4, 0, 0, 0, 9]
    let report : Report := ⟨7, [.ofEmpty, .ofEmpty, ⟨some 33, 1, .desync⟩, ⟨some 99, 0, .unknownOpcode⟩,
      ⟨some 32, 1, .malformed⟩, ⟨some 19, 2, .missingWidth⟩]⟩
    r.drained = 1 ∧ r.cursor = .needPayload 3 ∧ (r.feed bytes d .empty).1 = .ok report ∧
      ∃ cut, r.Accounts d .empty bytes cut report (r.feed bytes d .empty).2.1 (r.feed bytes d .empty).2.2.2 := by
  intro r d bytes report
  have drained : r.drained = 1 := by unfold r; cbv
  have cursor : r.cursor = .needPayload 3 := by unfold r; cbv
  have done : (r.feed bytes d .empty).1 = .ok report := by unfold r d bytes report; cbv
  exact ⟨drained, cursor, done, (reportsAccount r d .empty).2.1 bytes report _ _ _ (Prod.ext done rfl)⟩

end

end Reassembler

end RobotLink
