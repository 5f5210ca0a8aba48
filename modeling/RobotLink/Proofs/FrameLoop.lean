import RobotLink.Proofs.StreamParse

/-! What each operation of a reassembler does, in terms of the pieces of its buffered stream.
Processing is the same as asking for one frame after the other and dispatching each. -/
namespace RobotLink

theorem Outbox.appendEmpty (o : Outbox) : o ++ .empty = o := by
  change Outbox.mk (o.replies ++ []) (o.broadcasts ++ []) = o
  rw [List.append_nil, List.append_nil]

theorem Outbox.appendAssoc (a b c : Outbox) : a ++ b ++ c = a ++ (b ++ c) := by
  change Outbox.mk (a.replies ++ b.replies ++ c.replies) (a.broadcasts ++ b.broadcasts ++ c.broadcasts) = _
  rw [List.append_assoc, List.append_assoc]
  rfl

namespace Report

theorem noneAppend (r : Report) : .none ++ r = r := by
  change Report.mk (0 + r.frames) ([] ++ r.discards) = r
  rw [Nat.zero_add, List.nil_append]

theorem appendNone (r : Report) : r ++ .none = r := by
  change Report.mk (r.frames + 0) (r.discards ++ []) = r
  rw [Nat.add_zero, List.append_nil]

theorem appendAssoc (a b c : Report) : a ++ b ++ c = a ++ (b ++ c) := by
  change Report.mk (a.frames + b.frames + c.frames) (a.discards ++ b.discards ++ c.discards) = _
  rw [Nat.add_assoc, List.append_assoc]
  rfl

theorem ofEmptyAdd (a b : Nat) : Report.ofEmpty a ++ .ofEmpty b = .ofEmpty (a + b) := by
  change Report.mk (a + b) (List.replicate a .ofEmpty ++ List.replicate b .ofEmpty) = _
  rw [List.replicate_append_replicate]
  rfl

theorem discardedBytesAppend (a b : Report) :
    (a ++ b).discardedBytes = a.discardedBytes + b.discardedBytes := by
  change List.foldr _ 0 (a.discards ++ b.discards) = _
  rw [List.foldr_append, discardedBytes, discardedBytes]
  induction a.discards with
  | nil => simp
  | cons d rest ih => simp only [List.foldr_cons, ih, Nat.add_assoc]

theorem discardedBytesOfEmpty (n : Nat) : (Report.ofEmpty n).discardedBytes = 0 := by
  simp only [ofEmpty, discardedBytes]
  induction n with
  | zero => rfl
  | succ n ih => rw [List.replicate_succ, List.foldr_cons, ih]; rfl

end Report

namespace Dispatcher
variable {State : Type}

theorem deliverAppend (first later : List Piece) (d : Dispatcher State) (out : Outbox) :
    d.deliver (first ++ later) out =
      ((d.deliver first out).1 ++ ((d.deliver first out).2.2.deliver later (d.deliver first out).2.1).1,
        ((d.deliver first out).2.2.deliver later (d.deliver first out).2.1).2) := by
  induction first generalizing d out with
  | nil => simp only [List.nil_append, deliver, Report.noneAppend]
  | cons piece rest ih =>
    cases piece with
    | empty => simp only [List.cons_append, deliver, ih, Report.appendAssoc]
    | frame f => simp only [List.cons_append, deliver, ih, Report.appendAssoc]

theorem deliverFrames (cut : List Piece) (d : Dispatcher State) (out : Outbox) :
    (d.deliver cut out).1.frames = cut.length := by
  induction cut generalizing d out with
  | nil => rfl
  | cons piece rest ih =>
    cases piece with
    | empty => exact (Nat.add_comm 1 _).trans (congrArg (· + 1) (ih d out))
    | frame f => exact (Nat.add_comm 1 _).trans (congrArg (· + 1) (ih _ _))

theorem deliverEmpties (n : Nat) (d : Dispatcher State) (out : Outbox) :
    d.deliver (List.replicate n .empty) out = (.ofEmpty n, out, d) := by
  induction n with
  | zero => rfl
  | succ n ih =>
    simp only [List.replicate_succ, deliver, ih, Report.ofEmptyAdd, Nat.add_comm 1 n]

end Dispatcher

namespace Reassembler

def kept (r : Reassembler) (rest : Bytes) : ByteQueue :=
  if r.starved then r.buffer else .ofBytes rest

theorem piecesOfStarved {r : Reassembler} (starved : r.starved) :
    pieces r.limit r.cursor r.buffer.toBytes = ([], .waiting r.cursor r.buffer.toBytes) := by
  apply piecesOfShort
  rw [← r.buffer.sizeEq]
  exact of_decide_eq_true starved

theorem keptToBytes {r : Reassembler} {cut : List Piece} {after : Cursor} {rest : Bytes}
    (h : pieces r.limit r.cursor r.buffer.toBytes = (cut, .waiting after rest)) :
    (r.kept rest).toBytes = rest := by
  unfold kept
  split
  next starved =>
    rw [piecesOfStarved starved] at h
    cases h
    rfl
  next => exact ByteQueue.toBytesOfBytes rest

theorem firstFrameCut (limit : UInt32) (cursor : Cursor) (stream : Bytes) :
    pieces limit cursor stream =
      match firstFrame limit cursor stream with
      | (passed, .inr tail) => (List.replicate passed .empty, tail)
      | (passed, .inl (f, rest)) =>
        (List.replicate passed .empty ++ .frame f :: (pieces limit .needLength rest).1,
          (pieces limit .needLength rest).2) := by
  fun_induction firstFrame limit cursor stream with
  | case1 cursor stream after rest cut => rw [piecesNext, cut]; rfl
  | case2 cursor stream size rest cut => rw [piecesNext, cut]; rfl
  | case3 cursor stream f rest cut => rw [piecesNext, cut]; rfl
  | case4 cursor stream rest cut less passed found next ih =>
    rw [piecesNext, cut]
    simp only [ih, next]
    cases found with
    | inl first => rfl
    | inr tail => rfl

theorem firstFrameLess {limit : UInt32} {cursor : Cursor} {stream rest : Bytes} {passed : Nat}
    {f : Frame} (h : firstFrame limit cursor stream = (passed, .inl (f, rest))) :
    Cut.measure .needLength rest < Cut.measure cursor stream := by
  fun_induction firstFrame limit cursor stream generalizing passed with
  | case1 cursor stream after rest cut => cases h
  | case2 cursor stream size rest cut => cases h
  | case3 cursor stream g rest cut => cases h; exact Cut.nextLt (.inr ⟨f, cut⟩)
  | case4 cursor stream rest cut less passed found next ih =>
    cases h
    exact Nat.lt_trans (ih next) less

def afterFrame (r : Reassembler) (passed : Nat) (rest : Bytes) : Reassembler :=
  { r with
    drained := r.drained + passed, cursor := .needLength, buffer := .ofBytes rest
    frames := r.frames + 1 }

inductive NextStep (r : Reassembler) : Except FrameError (Option Frame) → Reassembler → Prop
  | latched {e} (failed : r.failed = some e) : NextStep r (.error e) r
  | waiting {passed cursor rest} (alive : r.failed = none)
      (cut : pieces r.limit r.cursor r.buffer.toBytes = (List.replicate passed .empty, .waiting cursor rest)) :
      NextStep r (.ok none) { r with drained := r.drained + passed, cursor, buffer := r.kept rest }
  | tooLarge {passed size rest} (alive : r.failed = none)
      (cut : pieces r.limit r.cursor r.buffer.toBytes = (List.replicate passed .empty, .tooLarge size rest)) :
      NextStep r (.error (.tooLarge size r.limit))
        { r with
          drained := r.drained + passed, cursor := .needLength, buffer := .ofBytes rest
          failed := some (.tooLarge size r.limit) }
  | frame {passed f rest} (alive : r.failed = none)
      (cut : pieces r.limit r.cursor r.buffer.toBytes =
        (List.replicate passed .empty ++ .frame f :: (pieces r.limit .needLength rest).1,
          (pieces r.limit .needLength rest).2))
      (less : Cut.measure .needLength rest < Cut.measure r.cursor r.buffer.toBytes) :
      NextStep r (.ok (some f)) (r.afterFrame passed rest)

theorem nextStep (r : Reassembler) : NextStep r r.next.1 r.next.2 := by
  cases failed : r.failed with
  | some e =>
    have same : r.next = (.error e, r) := by simp only [next, failed]
    rw [same]
    exact .latched failed
  | none =>
    by_cases starved : r.starved
    · have same : r.next = (.ok none, r) := by simp only [next, failed, if_pos starved]
      have cut := piecesOfStarved starved
      have step : NextStep r (.ok none)
          { r with drained := r.drained + 0, cursor := r.cursor, buffer := r.kept r.buffer.toBytes } :=
        .waiting failed cut
      rw [same]
      simp only [kept, if_pos starved, Nat.add_zero] at step
      exact step
    · have cut := firstFrameCut r.limit r.cursor r.buffer.toBytes
      cases first : firstFrame r.limit r.cursor r.buffer.toBytes with
      | mk passed found =>
        rw [first] at cut
        cases found with
        | inl pair =>
          obtain ⟨f, rest⟩ := pair
          simp only [next, failed, if_neg starved, first]
          exact failed ▸ .frame failed cut (firstFrameLess first)
        | inr tail =>
          cases tail with
          | waiting cursor rest =>
            have step := NextStep.waiting failed cut
            simp only [kept, if_neg starved, failed] at step
            simpa only [next, failed, if_neg starved, first, settle] using step
          | tooLarge size rest =>
            have step := NextStep.tooLarge failed cut
            simpa only [next, failed, if_neg starved, first, settle] using step

theorem nextFrame {r after : Reassembler} {f : Frame} (h : r.next = (.ok (some f), after)) :
    r.failed = none ∧ ∃ passed rest,
      pieces r.limit r.cursor r.buffer.toBytes =
        (List.replicate passed .empty ++ .frame f :: (pieces r.limit .needLength rest).1,
          (pieces r.limit .needLength rest).2) ∧
      Cut.measure .needLength rest < Cut.measure r.cursor r.buffer.toBytes ∧
      after = r.afterFrame passed rest := by
  have step := nextStep r
  rw [h] at step
  cases step with
  | frame alive cut less => exact ⟨alive, _, _, cut, less, rfl⟩

variable {State : Type}

theorem processLatched {r : Reassembler} {e : FrameError} (failed : r.failed = some e)
    (d : Dispatcher State) (out : Outbox) : r.process d out = (.error e, { r with drained := 0 }, out, d) := by
  simp only [process, failed]

def afterCut (r : Reassembler) (cut : List Piece) (report : Report) (cursor : Cursor) (rest : Bytes) :
    Reassembler :=
  { r with
    cursor, buffer := r.kept rest, drained := 0
    frames := r.frames + cut.countP Piece.isFrame
    discardedBytes := r.discardedBytes + report.discardedBytes }

theorem processWaiting {r : Reassembler} {cut : List Piece} {cursor : Cursor} {rest : Bytes}
    (alive : r.failed = none)
    (h : pieces r.limit r.cursor r.buffer.toBytes = (cut, .waiting cursor rest)) (d : Dispatcher State) (out : Outbox) :
    r.process d out =
      (.ok (.ofEmpty r.drained ++ (d.deliver cut out).1), r.afterCut cut (d.deliver cut out).1 cursor rest,
        (d.deliver cut out).2) := by
  by_cases starved : r.starved
  · have same := piecesOfStarved starved
    rw [h] at same
    cases same
    simp only [process, alive, if_pos starved, afterCut, kept, Dispatcher.deliver, Report.appendNone]
    rfl
  · simp only [process, alive, if_neg starved, h, settle, afterCut, kept]

theorem processTooLarge {r : Reassembler} {cut : List Piece} {size : UInt32} {rest : Bytes}
    (alive : r.failed = none)
    (h : pieces r.limit r.cursor r.buffer.toBytes = (cut, .tooLarge size rest)) (d : Dispatcher State) (out : Outbox) :
    r.process d out =
      (.error (.tooLarge size r.limit),
        { r with
          cursor := .needLength, buffer := .ofBytes rest, drained := 0
          failed := some (.tooLarge size r.limit)
          frames := r.frames + cut.countP Piece.isFrame
          discardedBytes := r.discardedBytes + (d.deliver cut out).1.discardedBytes },
        (d.deliver cut out).2) := by
  have enough : ¬ r.starved := by
    intro starved
    rw [piecesOfStarved starved] at h
    cases h
  simp only [process, alive, if_neg enough, h, settle]

inductive ProcessStep (r : Reassembler) (d : Dispatcher State) (out : Outbox) :
    Except FrameError Report × Reassembler × Outbox × Dispatcher State → Prop
  | latched {e} (failed : r.failed = some e) : ProcessStep r d out (.error e, { r with drained := 0 }, out, d)
  | waiting {cut cursor rest} (alive : r.failed = none)
      (here : pieces r.limit r.cursor r.buffer.toBytes = (cut, .waiting cursor rest)) :
      ProcessStep r d out
        (.ok (.ofEmpty r.drained ++ (d.deliver cut out).1), r.afterCut cut (d.deliver cut out).1 cursor rest,
          (d.deliver cut out).2)
  | tooLarge {cut size rest} (alive : r.failed = none)
      (here : pieces r.limit r.cursor r.buffer.toBytes = (cut, .tooLarge size rest)) :
      ProcessStep r d out
        (.error (.tooLarge size r.limit),
          { r with
            cursor := .needLength, buffer := .ofBytes rest, drained := 0
            failed := some (.tooLarge size r.limit)
            frames := r.frames + cut.countP Piece.isFrame
            discardedBytes := r.discardedBytes + (d.deliver cut out).1.discardedBytes },
          (d.deliver cut out).2)

theorem processStep (r : Reassembler) (d : Dispatcher State) (out : Outbox) : ProcessStep r d out (r.process d out) := by
  cases failed : r.failed with
  | some e =>
    rw [processLatched failed]
    exact .latched failed
  | none =>
    rcases here : pieces r.limit r.cursor r.buffer.toBytes with ⟨cut, tail⟩
    cases tail with
    | waiting cursor rest =>
      rw [processWaiting failed here]
      exact .waiting failed here
    | tooLarge size rest =>
      rw [processTooLarge failed here]
      exact .tooLarge failed here

def afterDispatch (r : Reassembler) (lost : Option Discard) : Reassembler :=
  { r with drained := 0, discardedBytes := r.discardedBytes + (Report.mk 1 lost.toList).discardedBytes }

theorem deliverFrame (passed : Nat) (f : Frame) (later : List Piece) (d : Dispatcher State) (out : Outbox) :
    d.deliver (List.replicate passed .empty ++ .frame f :: later) out =
      let (result, out, d) := d.dispatch f out
      let (report, after) := d.deliver later out
      (.ofEmpty passed ++ (⟨1, (f.discard? result).toList⟩ ++ report), after) := by
  rw [Dispatcher.deliverAppend, Dispatcher.deliverEmpties]
  rfl

theorem countFrame (passed : Nat) (f : Frame) (later : List Piece) :
    (List.replicate passed Piece.empty ++ .frame f :: later).countP Piece.isFrame =
      1 + later.countP Piece.isFrame := by
  rw [countFrames, framesOfAppend, framesOfReplicate, framesOfFrame, countFrames]
  exact Nat.add_comm _ _

theorem reportFrame (drained passed : Nat) (here later : Report) :
    Report.ofEmpty drained ++ (.ofEmpty passed ++ (here ++ later)) =
      .ofEmpty (drained + passed) ++ here ++ (.ofEmpty 0 ++ later) := by
  have zero : Report.ofEmpty 0 ++ later = later := Report.noneAppend later
  rw [zero, Report.appendAssoc, ← Report.appendAssoc, Report.ofEmptyAdd]

theorem lostFrame (passed : Nat) (here later : Report) :
    (Report.ofEmpty passed ++ (here ++ later)).discardedBytes =
      here.discardedBytes + later.discardedBytes := by
  rw [Report.discardedBytesAppend, Report.discardedBytesAppend, Report.discardedBytesOfEmpty,
    Nat.zero_add]

theorem processFrame {r after : Reassembler} {f : Frame} (h : r.next = (.ok (some f), after))
    (d : Dispatcher State) (out : Outbox) :
    r.process d out =
      let (result, out, d) := d.dispatch f out
      let (answer, last) := (after.afterDispatch (f.discard? result)).process d out
      (answer.map (.ofEmpty after.drained ++ ⟨1, (f.discard? result).toList⟩ ++ ·), last) := by
  obtain ⟨alive, passed, rest, cut, -, rfl⟩ := nextFrame h
  have enough : ¬ r.starved := by
    intro starved
    rw [piecesOfStarved starved] at cut
    simp at cut
  rcases dispatch : d.dispatch f out with ⟨result, out', d'⟩
  rcases ahead : pieces r.limit .needLength rest with ⟨later, tail⟩
  rw [ahead] at cut
  have alive' : ((r.afterFrame passed rest).afterDispatch (f.discard? result)).failed = none := alive
  have going : pieces r.limit .needLength (ByteQueue.ofBytes rest).toBytes = (later, tail) := by
    rw [ByteQueue.toBytesOfBytes]
    exact ahead
  cases tail with
  | waiting cursor unread =>
    -- What goes on holds `rest` as it stands, whether or not that is too short for a cut.
    have same : ((r.afterFrame passed rest).afterDispatch (f.discard? result)).kept unread = r.kept unread := by
      unfold kept
      rw [if_neg enough]
      split
      next starved =>
        have short := (going.symm.trans (piecesOfStarved starved))
        simp only [afterDispatch, afterFrame, ByteQueue.toBytesOfBytes] at short ⊢
        cases short
        rfl
      next => rfl
    rw [processWaiting alive cut, deliverFrame]
    simp only [dispatch]
    rw [processWaiting alive' going]
    simp only [afterCut, same, countFrame]
    simp only [lostFrame, reportFrame, afterDispatch, afterFrame, Nat.add_assoc, Except.map]
  | tooLarge size unread =>
    rw [processTooLarge alive cut, deliverFrame, countFrame]
    simp only [dispatch]
    rw [processTooLarge alive' going]
    simp only [lostFrame, afterDispatch, afterFrame, Nat.add_assoc, Except.map]

theorem nextLess {r after : Reassembler} {f : Frame} (h : r.next = (.ok (some f), after)) :
    Cut.measure after.cursor after.buffer.toBytes < Cut.measure r.cursor r.buffer.toBytes := by
  obtain ⟨-, passed, rest, -, less, rfl⟩ := nextFrame h
  simpa only [afterFrame, ByteQueue.toBytesOfBytes] using less

def processEach (r : Reassembler) (d : Dispatcher State) (out : Outbox) :
    List Frame × Except FrameError Report × Reassembler × Outbox × Dispatcher State :=
  match h : r.next with
  | (.error e, after) => ([], .error e, { after with drained := 0 }, out, d)
  | (.ok none, after) => ([], .ok (.ofEmpty after.drained), { after with drained := 0 }, out, d)
  | (.ok (some f), after) =>
    let (result, out, d) := d.dispatch f out
    have := nextLess h
    let (met, answer, last) := processEach (after.afterDispatch (f.discard? result)) d out
    (f :: met, answer.map (.ofEmpty after.drained ++ ⟨1, (f.discard? result).toList⟩ ++ ·), last)
termination_by Cut.measure r.cursor r.buffer.toBytes

theorem processStopped {r after : Reassembler} (h : r.next = (.ok none, after)) (d : Dispatcher State) (out : Outbox) :
    r.process d out = (.ok (.ofEmpty after.drained), { after with drained := 0 }, out, d) := by
  have step := nextStep r
  rw [h] at step
  cases step with
  | waiting alive cut =>
    rw [processWaiting alive cut, Dispatcher.deliverEmpties, afterCut, countFrames, framesOfReplicate,
      Report.ofEmptyAdd, Report.discardedBytesOfEmpty]
    rfl

theorem processBroken {r after : Reassembler} {e : FrameError} (h : r.next = (.error e, after))
    (d : Dispatcher State) (out : Outbox) : r.process d out = (.error e, { after with drained := 0 }, out, d) := by
  have step := nextStep r
  rw [h] at step
  cases step with
  | latched failed => exact processLatched failed d out
  | tooLarge alive cut =>
    rw [processTooLarge alive cut, Dispatcher.deliverEmpties, countFrames, framesOfReplicate,
      Report.discardedBytesOfEmpty]
    rfl

theorem processEachEq (r : Reassembler) (d : Dispatcher State) (out : Outbox) :
    (r.processEach d out).2 = r.process d out := by
  fun_induction processEach r d out with
  | case1 r d out e after h => exact (processBroken h d out).symm
  | case2 r d out after h => exact (processStopped h d out).symm
  | case3 r d out f after h result next d' dispatch less met answer last each ih =>
    rw [each] at ih
    rw [processFrame h]
    simp only [dispatch, ← ih]

end Reassembler

end RobotLink
