import RobotLink.Proofs.FrameLoop
import RobotLink.Proofs.HandlerCalls

/-! Partial delivery. However a stream is divided and in whatever order bytes are added, frames
asked for and frames dispatched, a reassembler hands out the frames of the whole stream in order;
a call that stops for want of bytes or at a fatal length leaves exactly its unfinished end. -/
namespace RobotLink.Reassembler
variable {State : Type}

inductive Call where
  | extend (bytes : Bytes)
  | next
  | process
  | feed (bytes : Bytes)
  deriving DecidableEq, Repr

def Call.bytes : Call → Bytes
  | .extend bytes => bytes
  | .next => []
  | .process => []
  | .feed bytes => bytes

def fedBy (calls : List Call) : Bytes := calls.flatMap Call.bytes

inductive Answer where
  | nothing
  | frame (result : Except FrameError (Option Frame))
  | report (result : Except FrameError Report)

def Answer.Exhausted : Answer → Prop
  | .nothing => False
  | .frame (.ok (some _)) => False
  | .frame _ => True
  | .report _ => True

inductive Handout where
  | given (frame : Frame)
  | dispatched (frame : Frame)
  deriving DecidableEq, Repr

namespace Handout

def frame : Handout → Frame
  | given f => f
  | dispatched f => f

def dispatched? : Handout → Option Frame
  | given _ => none
  | dispatched f => some f

theorem framesDispatched (frames : List Frame) : (frames.map dispatched).map frame = frames := by
  rw [List.map_map]
  exact List.map_id frames

theorem dispatchedAll (frames : List Frame) : (frames.map dispatched).filterMap dispatched? = frames := by
  rw [List.filterMap_map]
  exact List.filterMap_some

end Handout

structure Session (State : Type) where
  reassembler : Reassembler
  dispatcher : Dispatcher State
  outbox : Outbox
  handed : List Handout

namespace Session

def start (limit : UInt32) (d : Dispatcher State) (out : Outbox) : Session State := ⟨fresh limit, d, out, []⟩

def frames (s : Session State) : List Frame := s.handed.map Handout.frame

def processed (s : Session State) : Answer × Session State :=
  let (result, r, out, d) := s.reassembler.process s.dispatcher s.outbox
  (.report result,
    ⟨r, d, out, s.handed ++ (s.reassembler.processEach s.dispatcher s.outbox).1.map .dispatched⟩)

def apply (s : Session State) : Call → Answer × Session State
  | .extend bytes => (.nothing, { s with reassembler := s.reassembler.extend bytes })
  | .next =>
    match s.reassembler.next with
    | (.ok (some f), r) => (.frame (.ok (some f)), { s with reassembler := r, handed := s.handed ++ [.given f] })
    | (result, r) => (.frame result, { s with reassembler := r })
  | .process => s.processed
  | .feed bytes =>
    let (result, r, out, d) := s.reassembler.feed bytes s.dispatcher s.outbox
    (.report result,
      ⟨r, d, out, s.handed ++ ((s.reassembler.extend bytes).processEach s.dispatcher s.outbox).1.map .dispatched⟩)

def run (s : Session State) (calls : List Call) : Session State :=
  calls.foldl (fun s call => (s.apply call).2) s

def EndsExhausted (s : Session State) (calls : List Call) : Prop :=
  ∃ before last, calls = before ++ [last] ∧ ((s.run before).apply last).1.Exhausted

end Session

def StandsAt (r : Reassembler) : Tail → Prop
  | .waiting cursor rest => r.failed = none ∧ r.cursor = cursor ∧ r.buffer.toBytes = rest
  | .tooLarge size rest =>
    r.failed = some (.tooLarge size r.limit) ∧ r.cursor = .needLength ∧ r.buffer.toBytes = rest

def outlook (r : Reassembler) : List Frame × Tail :=
  match r.failed with
  | none => (framesOf (pieces r.limit r.cursor r.buffer.toBytes).1, (pieces r.limit r.cursor r.buffer.toBytes).2)
  | some (.tooLarge size _) => ([], .tooLarge size r.buffer.toBytes)

theorem outlookAlive {r : Reassembler} {cut : List Piece} {tail : Tail} (alive : r.failed = none)
    (h : pieces r.limit r.cursor r.buffer.toBytes = (cut, tail)) : r.outlook = (framesOf cut, tail) := by
  simp only [outlook, alive, h]

theorem outlookFailed {r : Reassembler} {size limit : UInt32} (failed : r.failed = some (.tooLarge size limit)) :
    r.outlook = ([], .tooLarge size r.buffer.toBytes) := by
  simp only [outlook, failed]

theorem outlookExtend (r : Reassembler) (bytes : Bytes) :
    (r.extend bytes).outlook =
      (r.outlook.1 ++ framesOf (r.outlook.2.resume r.limit bytes).1, (r.outlook.2.resume r.limit bytes).2) := by
  cases failed : r.failed with
  | some e =>
    obtain ⟨size, limit⟩ := e
    have same : (r.extend bytes).failed = some (.tooLarge size limit) := failed
    rw [outlookFailed failed, outlookFailed same]
    simp only [extend, ByteQueue.toBytesPush, Tail.resume]
    rfl
  | none =>
    have same : (r.extend bytes).failed = none := failed
    have longer := piecesAppend r.limit r.cursor r.buffer.toBytes bytes
    rw [← ByteQueue.toBytesPush] at longer
    rw [outlookAlive same longer, outlookAlive failed rfl, framesOfAppend]

theorem wholeFramesAppend (limit : UInt32) (stream more : Bytes) :
    wholeFrames limit (stream ++ more) =
      ((wholeFrames limit stream).1 ++ framesOf ((wholeFrames limit stream).2.resume limit more).1,
        ((wholeFrames limit stream).2.resume limit more).2) := by
  simp only [wholeFramesEqPieces, piecesAppend, framesOfAppend]

structure Session.Tracks (limit : UInt32) (fed : Bytes) (s : Session State) : Prop where
  sameLimit : s.reassembler.limit = limit
  latched : ∀ e, s.reassembler.failed = some e →
    s.reassembler.cursor = .needLength ∧ ∃ size, e = .tooLarge size limit
  whole : wholeFrames limit fed = (s.frames ++ s.reassembler.outlook.1, s.reassembler.outlook.2)

structure Settled (r : Reassembler) : Prop where
  handedAll : r.outlook.1 = []
  stands : r.StandsAt r.outlook.2

theorem settledWaiting {r : Reassembler} {cut : List Piece} {before cursor : Cursor} {stream rest : Bytes}
    (h : pieces r.limit before stream = (cut, .waiting cursor rest)) (alive : r.failed = none)
    (sameCursor : r.cursor = cursor) (sameBytes : r.buffer.toBytes = rest) :
    r.Settled ∧ r.outlook = ([], .waiting cursor rest) := by
  have idle := piecesOfWaiting h
  rw [← sameCursor, ← sameBytes] at idle
  have view : r.outlook = ([], .waiting cursor rest) := by
    rw [outlookAlive alive idle, sameCursor, sameBytes]
    rfl
  refine ⟨⟨?_, ?_⟩, view⟩
  · rw [view]
  · rw [view]
    exact ⟨alive, sameCursor, sameBytes⟩

theorem settledFailed {r : Reassembler} {size : UInt32} {rest : Bytes}
    (failed : r.failed = some (.tooLarge size r.limit)) (sameCursor : r.cursor = .needLength)
    (sameBytes : r.buffer.toBytes = rest) : r.Settled ∧ r.outlook = ([], .tooLarge size rest) := by
  have view : r.outlook = ([], .tooLarge size rest) := by
    rw [outlookFailed failed, sameBytes]
  refine ⟨⟨?_, ?_⟩, view⟩
  · rw [view]
  · rw [view]
    exact ⟨failed, sameCursor, sameBytes⟩

theorem Session.Tracks.settle {limit : UInt32} {fed : Bytes} {s t : Session State} (h : s.Tracks limit fed)
    (sameLimit : t.reassembler.limit = s.reassembler.limit)
    (handed : t.frames = s.frames ++ s.reassembler.outlook.1)
    (settled : t.reassembler.Settled ∧ t.reassembler.outlook = ([], s.reassembler.outlook.2)) :
    t.Tracks limit fed ∧ t.reassembler.Settled := by
  refine ⟨⟨sameLimit.trans h.sameLimit, ?_, ?_⟩, settled.1⟩
  · intro e failed
    have stands := settled.1.stands
    rw [settled.2] at stands
    cases tail : s.reassembler.outlook.2 with
    | waiting cursor rest =>
      rw [tail] at stands
      exact absurd (stands.1.symm.trans failed) (by simp)
    | tooLarge size rest =>
      rw [tail] at stands
      have same := Option.some.inj (failed.symm.trans stands.1)
      rw [sameLimit, h.sameLimit] at same
      exact ⟨stands.2.1, size, same⟩
  · rw [h.whole, handed, settled.2, List.append_nil]

theorem Session.Tracks.onExtend {limit : UInt32} {fed : Bytes} {s : Session State} (h : s.Tracks limit fed)
    (bytes : Bytes) : { s with reassembler := s.reassembler.extend bytes }.Tracks limit (fed ++ bytes) := by
  refine ⟨h.sameLimit, h.latched, ?_⟩
  rw [wholeFramesAppend, h.whole, outlookExtend, h.sameLimit, List.append_assoc]
  rfl

theorem Session.Tracks.onNext {limit : UInt32} {fed : Bytes} {s : Session State} (h : s.Tracks limit fed) :
    (s.apply .next).2.Tracks limit fed ∧
      ((s.apply .next).1.Exhausted → (s.apply .next).2.reassembler.Settled) := by
  have step := nextStep s.reassembler
  rcases asked : s.reassembler.next with ⟨result, after⟩
  rw [asked] at step
  cases step with
  | @latched e failed =>
    obtain ⟨cursor, size, rfl⟩ := h.latched e failed
    have settled := settledFailed (h.sameLimit ▸ failed) cursor rfl
    have view := outlookFailed failed
    simp only [apply, asked]
    refine And.imp_right (fun settled _ => settled) (h.settle rfl ?_ ?_)
    · rw [view, List.append_nil]
    · exact ⟨settled.1, settled.2.trans (by rw [view])⟩
  | waiting alive cut =>
    have view := outlookAlive alive cut
    rw [framesOfReplicate] at view
    simp only [apply, asked]
    refine And.imp_right (fun settled _ => settled) (h.settle rfl ?_ ?_)
    · rw [view, List.append_nil]
      rfl
    · rw [view]
      exact settledWaiting cut alive rfl (keptToBytes cut)
  | tooLarge alive cut =>
    have view := outlookAlive alive cut
    rw [framesOfReplicate] at view
    simp only [apply, asked]
    refine And.imp_right (fun settled _ => settled) (h.settle rfl ?_ ?_)
    · rw [view, List.append_nil]
      rfl
    · rw [view]
      exact settledFailed rfl rfl (ByteQueue.toBytesOfBytes _)
  | @frame passed f rest alive cut less =>
    have view := outlookAlive alive cut
    have ahead : (s.reassembler.afterFrame passed rest).outlook = _ := outlookAlive alive rfl
    simp only [afterFrame, ByteQueue.toBytesOfBytes] at ahead
    rw [framesOfAppend, framesOfReplicate, framesOfFrame] at view
    simp only [apply, asked]
    refine ⟨⟨h.sameLimit, ?_, ?_⟩, False.elim⟩
    · intro e failed
      exact absurd (alive.symm.trans failed) (by simp)
    · rw [h.whole, view, ahead]
      simp [frames, Handout.frame]

theorem processMeets (r : Reassembler) (d : Dispatcher State) (out : Outbox) :
    (r.processEach d out).1 = r.outlook.1 := by
  fun_induction processEach r d out with
  | case1 r d out e after h =>
    have step := nextStep r
    rw [h] at step
    cases step with
    | latched failed =>
      obtain ⟨size, limit⟩ := e
      rw [outlookFailed failed]
    | tooLarge alive cut => rw [outlookAlive alive cut, framesOfReplicate]
  | case2 r d out after h =>
    have step := nextStep r
    rw [h] at step
    cases step with
    | waiting alive cut => rw [outlookAlive alive cut, framesOfReplicate]
  | case3 r d out f after h result next d' dispatch less met answer last each ih =>
    obtain ⟨alive, passed, rest, cut, -, rfl⟩ := nextFrame h
    have ahead : ((r.afterFrame passed rest).afterDispatch (f.discard? result)).outlook =
        (framesOf (pieces r.limit .needLength rest).1, (pieces r.limit .needLength rest).2) := by
      refine outlookAlive alive ?_
      simp only [afterDispatch, afterFrame, ByteQueue.toBytesOfBytes]
    rw [outlookAlive alive cut, framesOfAppend, framesOfReplicate, framesOfFrame, List.nil_append]
    rw [each, ahead] at ih
    exact congrArg (f :: ·) ih

theorem Session.processedFrames (s : Session State) : s.processed.2.frames = s.frames ++ s.reassembler.outlook.1 := by
  change (s.handed ++ _).map Handout.frame = _
  rw [List.map_append, Handout.framesDispatched, processMeets]
  rfl

theorem Session.Tracks.onProcess {limit : UInt32} {fed : Bytes} {s : Session State} (h : s.Tracks limit fed) :
    s.processed.2.Tracks limit fed ∧ s.processed.2.reassembler.Settled := by
  cases failed : s.reassembler.failed with
  | some e =>
    obtain ⟨cursor, size, rfl⟩ := h.latched e failed
    have view := outlookFailed failed
    refine h.settle ?_ s.processedFrames ?_
    · simp only [processed, processLatched failed]
    · simp only [processed, processLatched failed, view]
      exact settledFailed (h.sameLimit ▸ failed) cursor rfl
  | none =>
    rcases cut : pieces s.reassembler.limit s.reassembler.cursor s.reassembler.buffer.toBytes with ⟨ps, tail⟩
    have view := outlookAlive failed cut
    cases tail with
    | waiting cursor rest =>
      refine h.settle ?_ s.processedFrames ?_
      · simp only [processed, processWaiting failed cut, afterCut]
      · simp only [processed, processWaiting failed cut, view]
        exact settledWaiting cut failed rfl (keptToBytes cut)
    | tooLarge size rest =>
      refine h.settle ?_ s.processedFrames ?_
      · simp only [processed, processTooLarge failed cut]
      · simp only [processed, processTooLarge failed cut, view]
        exact settledFailed rfl rfl (ByteQueue.toBytesOfBytes _)

theorem Session.Tracks.onCall {limit : UInt32} {fed : Bytes} {s : Session State} (h : s.Tracks limit fed)
    (call : Call) :
    (s.apply call).2.Tracks limit (fed ++ call.bytes) ∧
      ((s.apply call).1.Exhausted → (s.apply call).2.reassembler.Settled) := by
  cases call with
  | extend bytes => exact ⟨h.onExtend bytes, False.elim⟩
  | next =>
    simp only [Call.bytes, List.append_nil]
    exact h.onNext
  | process =>
    simp only [Call.bytes, List.append_nil]
    exact And.imp_right (fun settled _ => settled) h.onProcess
  | feed bytes => exact And.imp_right (fun settled _ => settled) (h.onExtend bytes).onProcess

theorem Session.Tracks.onRun {limit : UInt32} {fed : Bytes} {s : Session State} (h : s.Tracks limit fed)
    (calls : List Call) : (s.run calls).Tracks limit (fed ++ fedBy calls) := by
  induction calls generalizing s fed with
  | nil =>
    simp only [fedBy, List.flatMap_nil, List.append_nil]
    exact h
  | cons call rest ih =>
    have later := ih (h.onCall call).1
    rw [List.append_assoc] at later
    exact later

theorem Session.tracksStart (limit : UInt32) (d : Dispatcher State) (out : Outbox) :
    (start limit d out).Tracks limit [] := by
  have none : wholeFrames limit [] = ([], .waiting .needLength []) := by simp [wholeFrames]
  have view : (fresh limit).outlook = ([], .waiting .needLength []) := by
    have few : ByteQueue.empty.toBytes.length < Cursor.needLength.needed := by decide
    exact outlookAlive rfl (piecesOfShort few)
  refine ⟨rfl, ?_, ?_⟩
  · intro e failed
    cases failed
  · rw [none]
    simp only [start, view, List.append_nil]
    rfl

theorem Session.settledRun {limit : UInt32} {d : Dispatcher State} {out : Outbox} {calls : List Call}
    (ends : (start limit d out).EndsExhausted calls) : ((start limit d out).run calls).reassembler.Settled := by
  obtain ⟨before, last, rfl, exhausted⟩ := ends
  have tracks := (tracksStart limit d out).onRun before
  have settled := (tracks.onCall last).2 exhausted
  rw [run, List.foldl_append]
  exact settled

theorem standsUnique {r u : Reassembler} {tail : Tail} (sameLimit : r.limit = u.limit)
    (here : r.StandsAt tail) (there : u.StandsAt tail) :
    r.cursor = u.cursor ∧ r.buffer.toBytes = u.buffer.toBytes ∧ r.failed = u.failed := by
  cases tail with
  | waiting cursor rest =>
    exact ⟨here.2.1.trans there.2.1.symm, here.2.2.trans there.2.2.symm, here.1.trans there.1.symm⟩
  | tooLarge size rest =>
    refine ⟨here.2.1.trans there.2.1.symm, here.2.2.trans there.2.2.symm, ?_⟩
    rw [here.1, there.1, sameLimit]

theorem processDispatches (r : Reassembler) (d : Dispatcher State) (out : Outbox) :
    (r.process d out).2.2 = d.dispatchAll out (r.processEach d out).1 := by
  rw [← processEachEq]
  fun_induction processEach r d out with
  | case1 | case2 => rfl
  | case3 r d out f after h result next d' dispatch less met answer last each ih =>
    rw [each] at ih
    rw [Dispatcher.dispatchAll, List.foldl_cons, dispatch]
    exact ih

def Session.Dispatched (d : Dispatcher State) (out : Outbox) (s : Session State) : Prop :=
  (s.outbox, s.dispatcher) = d.dispatchAll out (s.handed.filterMap Handout.dispatched?)

namespace Session
variable {d : Dispatcher State} {out : Outbox} {s : Session State}

theorem Dispatched.onProcess (h : s.Dispatched d out) : s.processed.2.Dispatched d out := by
  have dispatches := processDispatches s.reassembler s.dispatcher s.outbox
  change (s.reassembler.process s.dispatcher s.outbox).2.2 = d.dispatchAll out ((s.handed ++ _).filterMap _)
  rw [dispatches, List.filterMap_append, Handout.dispatchedAll, Dispatcher.dispatchAllAppend, ← show _ = _ from h]

theorem Dispatched.onCall (h : s.Dispatched d out) (call : Call) : (s.apply call).2.Dispatched d out := by
  cases call with
  | extend bytes => exact h
  | next =>
    rcases asked : s.reassembler.next with ⟨_ | _ | f, after⟩
    all_goals simp only [apply, asked]
    · exact h
    · exact h
    · have given : (s.handed ++ [Handout.given f]).filterMap Handout.dispatched? = s.handed.filterMap Handout.dispatched? :=
        (List.filterMap_append ..).trans (List.append_nil _)
      rw [Dispatched, given]
      exact h
  | process => exact h.onProcess
  | feed bytes => exact onProcess (s := { s with reassembler := s.reassembler.extend bytes }) h

theorem dispatchedRun (limit : UInt32) (d : Dispatcher State) (out : Outbox) (calls : List Call) :
    ((start limit d out).run calls).Dispatched d out :=
  List.foldlRecOn calls _ (show (start limit d out).Dispatched d out from rfl) fun _ h call _ => h.onCall call

end Session

/-- What processing does is to ask for one frame after the other and to dispatch each. The frames handed out,
given or dispatched, are always the first of the whole stream's; a call that goes on to the end leaves all of
them handed out and the reassembler at the stream's unfinished end, so that the same bytes in any other division
and order of calls lead to the same. -/
theorem deliveryFollowsStream (limit : UInt32) (d : Dispatcher State) (out : Outbox) (calls : List Call) :
    let s := (Session.start limit d out).run calls
    s.reassembler.process s.dispatcher s.outbox = (s.reassembler.processEach s.dispatcher s.outbox).2 ∧
      (s.outbox, s.dispatcher) = d.dispatchAll out (s.handed.filterMap Handout.dispatched?) ∧
      s.frames <+: (wholeFrames limit (fedBy calls)).1 ∧
      ((Session.start limit d out).EndsExhausted calls →
        s.frames = (wholeFrames limit (fedBy calls)).1 ∧
        s.reassembler.StandsAt (wholeFrames limit (fedBy calls)).2 ∧
        ∀ {Other : Type} (other : Dispatcher Other) (queued : Outbox) (divided : List Call),
          fedBy divided = fedBy calls → (Session.start limit other queued).EndsExhausted divided →
          let t := (Session.start limit other queued).run divided
          t.frames = s.frames ∧ t.reassembler.cursor = s.reassembler.cursor ∧
            t.reassembler.buffer.toBytes = s.reassembler.buffer.toBytes ∧
            t.reassembler.failed = s.reassembler.failed) := by
  have follows {Any : Type} (any : Dispatcher Any) (queued : Outbox) (run : List Call) :=
    (Session.tracksStart limit any queued).onRun run
  have complete {Any : Type} (any : Dispatcher Any) (queued : Outbox) (run : List Call)
      (ends : (Session.start limit any queued).EndsExhausted run) :
      ((Session.start limit any queued).run run).frames = (wholeFrames limit (fedBy run)).1 ∧
        ((Session.start limit any queued).run run).reassembler.StandsAt (wholeFrames limit (fedBy run)).2 := by
    have whole := (follows any queued run).whole
    have settled := Session.settledRun ends
    rw [settled.handedAll, List.append_nil] at whole
    exact ⟨(congrArg Prod.fst whole).symm, (congrArg Prod.snd whole).symm ▸ settled.stands⟩
  intro s
  refine ⟨(processEachEq ..).symm, Session.dispatchedRun limit d out calls,
    ⟨s.reassembler.outlook.1, (congrArg Prod.fst (follows d out calls).whole).symm⟩, fun ends => ?_⟩
  obtain ⟨handed, stands⟩ := complete d out calls ends
  refine ⟨handed, stands, fun other queued divided same ends' => ?_⟩
  obtain ⟨handed', stands'⟩ := complete other queued divided ends'
  rw [same] at handed' stands'
  have sameLimit := (follows other queued divided).sameLimit.trans (follows d out calls).sameLimit.symm
  exact ⟨handed'.trans handed.symm, standsUnique sameLimit stands' stands⟩

theorem dividedDelivery :
    let d := (Dispatcher.fresh .standard []).registerCatchAll fun m seen out => (out, seen ++ [m])
    let calls : List Call := [.extend [2, 0], .next, .feed [0, 0, 1], .feed [9, 0, 0, 0, 0, 1, 0, 0, 0, 33, 7]]
    let whole : List Call := [.feed [2, 0, 0, 0, 1, 9, 0, 0, 0, 0, 1, 0, 0, 0, 33, 7]]
    let s := (Session.start 16 d .empty).run calls
    (Session.start 16 d .empty).EndsExhausted calls ∧ (Session.start 16 d .empty).EndsExhausted whole ∧
      s.handed = [.dispatched ⟨1, [9]⟩, .dispatched ⟨33, []⟩] ∧ s.reassembler.StandsAt (.waiting .needLength [7]) ∧
      s.dispatcher.state = [.byte .stateSensors 9, .getScripts] ∧
      ((Session.start 16 d .empty).run whole).frames = s.frames := by
  intro d calls whole s
  have parts : (Session.start 16 d .empty).EndsExhausted calls := ⟨calls.dropLast, _, rfl, trivial⟩
  have once : (Session.start 16 d .empty).EndsExhausted whole := ⟨[], _, rfl, trivial⟩
  have parsed : wholeFrames 16 (fedBy calls) = ([⟨1, [9]⟩, ⟨33, []⟩], .waiting .needLength [7]) := by
    simp [calls, fedBy, Call.bytes, wholeFrames, Bytes.toNat]
  have handed : s.handed = [.dispatched ⟨1, [9]⟩, .dispatched ⟨33, []⟩] := by
    simp only [s, calls, Session.run, List.foldl_cons, List.foldl_nil, Session.apply, processMeets]
    decide +kernel
  obtain ⟨_, dispatched, _, exhausted⟩ := deliveryFollowsStream 16 d .empty calls
  obtain ⟨frames, stands, same⟩ := exhausted parts
  rw [parsed] at frames stands
  have seen := congrArg (fun after => after.2.state) dispatched
  exact ⟨parts, once, handed, stands, seen.trans (by rw [handed]; rfl), (same d .empty whole rfl once).1⟩

end RobotLink.Reassembler
