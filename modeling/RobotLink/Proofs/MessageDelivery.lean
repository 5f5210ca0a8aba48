import RobotLink.Proofs.Feeding
import RobotLink.Proofs.PartialDelivery
import RobotLink.Proofs.PayloadRoundTrip

/-! Messages end to end. The frames of messages, put one after the other and divided anywhere, are
cut again as they were, and each is dispatched as the message that it was written for: nothing is
lost, repeated, reordered or discarded. -/
namespace RobotLink

theorem Frame.cutEncoded {limit : UInt32} {f : Frame} (fits : f.bodyLength ≤ limit.toNat) (rest : Bytes) :
    Cut.next limit .needLength (f.encode ++ rest) = .frame f rest := by
  have small : f.bodyLength < UInt32.size := Nat.lt_of_le_of_lt fits limit.toNat_lt
  have length : f.bodyLength.toUInt32.toNat = f.bodyLength := UInt32.toNat_ofNat_of_lt small
  have head : Bytes.split? Frame.prefixLength (f.encode ++ rest) =
      some (Payload.putCount f.bodyLength, f.opcode :: f.payload ++ rest) :=
    Bytes.splitSome.2 ⟨List.append_assoc _ _ _, Bytes.lengthOfNat 4 _⟩
  have body : Bytes.split? f.bodyLength (f.opcode :: f.payload ++ rest) = some (f.opcode :: f.payload, rest) :=
    Bytes.splitSome.2 ⟨rfl, Nat.add_comm _ _⟩
  have read : (Bytes.toNat (Payload.putCount f.bodyLength)).toUInt32 = f.bodyLength.toUInt32 := by
    rw [Payload.putCount, Bytes.toNatOfNat, Nat.mod_eq_of_lt (show f.bodyLength < Bytes.span 4 from small)]
  have within : ¬ limit < f.bodyLength.toUInt32 := by
    rw [UInt32.lt_iff_toNat_lt, length]
    omega
  simp only [Cut.next, head, read, if_neg within, Cut.body, length, body]

namespace Message

def pieces (ms : List Message) : List Piece := ms.map fun m => .frame m.frame

theorem cutMessages {limit : UInt32} {ms : List Message} (fits : ∀ m ∈ ms, m.frame.bodyLength ≤ limit.toNat) :
    RobotLink.pieces limit .needLength (ms.flatMap encode) = (pieces ms, .waiting .needLength []) := by
  induction ms with
  | nil => exact piecesOfNothing limit
  | cons m rest ih =>
    have first := Frame.cutEncoded (fits m List.mem_cons_self) (rest.flatMap encode)
    have later := ih fun other member => fits other (List.mem_cons_of_mem _ member)
    rw [List.flatMap_cons, piecesNext, encode, first]
    simp only [later]
    rfl

end Message

namespace Dispatcher
variable {State : Type}

theorem dispatchMessage {d : Dispatcher State} {m : Message} (formed : m.WellFormed d.widths)
    (fits : m.payload.length < UInt32.size) (out : Outbox) :
    d.dispatch m.frame out =
      (.ok m.payload.length, (call m (d.route m.opcode) d.state out).1,
        { d with dispatched := d.dispatched + 1, state := (call m (d.route m.opcode) d.state out).2 }) := by
  have known : Opcode.ofCode? m.frame.opcode = some m.opcode := Opcode.ofCodeCode m.opcode
  have decoded : Message.decode d.widths m.opcode m.frame.payload = (.ok m, []) := by
    have read := Message.decodePayload formed fits []
    rw [List.append_nil] at read
    exact read
  simp only [dispatch, known, decoded]
  rfl

theorem deliverMessage {d : Dispatcher State} {m : Message} (formed : m.WellFormed d.widths)
    (fits : m.payload.length < UInt32.size) (later : List Piece) (out : Outbox) :
    d.deliver (.frame m.frame :: later) out =
      let called := call m (d.route m.opcode) d.state out
      let delivered := { d with dispatched := d.dispatched + 1, state := called.2 }.deliver later called.1
      (⟨1, []⟩ ++ delivered.1, delivered.2) := by
  have read : m.frame.discard? (.ok m.payload.length) = none := if_neg (Nat.lt_irrefl _)
  simp only [deliver, dispatchMessage formed fits, read]
  rfl

def watch : Handler (State × List Message) := fun m s out => (out, (s.1, s.2 ++ [m]))

def watched (d : Dispatcher State) : Dispatcher (State × List Message) :=
  { widths := d.widths
    handlers := d.handlers.map fun (op, handler) => (op, handler.within Prod.fst fun part s => (part, s.2))
    catchAll := d.catchAll.map fun handler => handler.within Prod.fst fun part s => (part, s.2)
    dispatched := d.dispatched
    state := (d.state, []) : Dispatcher (State × List Message) }.registerCatchAll watch

def Watches (w : Dispatcher (State × List Message)) : Prop :=
  ∀ m s out, (call m (w.route m.opcode) s out).2.2 = s.2 ++ [m]

theorem callWatched (m : Message) (handlers : List (Handler State)) (s : State × List Message) (out : Outbox) :
    (call m (handlers.map (fun handler => handler.within Prod.fst fun part s => (part, s.2)) ++ [watch]) s out).2.2 =
      s.2 ++ [m] := by
  induction handlers generalizing s out with
  | nil => rfl
  | cons handler rest ih =>
    simp only [List.map_cons, List.cons_append, call]
    rw [ih]
    rfl

theorem watchedWatches (d : Dispatcher State) : d.watched.Watches := by
  intro m s out
  have route : d.watched.route m.opcode =
      (d.route m.opcode).map (fun handler => handler.within Prod.fst fun part s => (part, s.2)) ++ [watch] := by
    simp only [Dispatcher.route, watched, registerCatchAll, handlersOf, List.map_append, List.append_assoc,
      List.filterMap_map, List.map_filterMap]
    congr 2
    funext entry
    by_cases same : entry.1 = m.opcode
    · simp only [Function.comp_apply, if_pos same, Option.map_some]
    · simp only [Function.comp_apply, if_neg same, Option.map_none]
  rw [route, callWatched]

theorem deliverMessages {w : Dispatcher (State × List Message)} (watches : w.Watches) {ms : List Message}
    (formed : ∀ m ∈ ms, m.WellFormed w.widths) (fits : ∀ m ∈ ms, m.payload.length < UInt32.size) (out : Outbox) :
    (w.deliver (Message.pieces ms) out).1 = ⟨ms.length, []⟩ ∧
      (w.deliver (Message.pieces ms) out).2.2.state.2 = w.state.2 ++ ms ∧
      (w.deliver (Message.pieces ms) out).2.2.widths = w.widths ∧
      (w.deliver (Message.pieces ms) out).2.2.Watches := by
  induction ms generalizing w out with
  | nil => exact ⟨rfl, (List.append_nil _).symm, rfl, watches⟩
  | cons m rest ih =>
    have one := deliverMessage (formed m List.mem_cons_self) (fits m List.mem_cons_self) (Message.pieces rest) out
    have seen := watches m w.state out
    generalize call m (w.route m.opcode) w.state out = called at one seen
    obtain ⟨report, log, widths, still⟩ := @ih { w with dispatched := w.dispatched + 1, state := called.2 } watches
      (fun other member => formed other (List.mem_cons_of_mem _ member))
      (fun other member => fits other (List.mem_cons_of_mem _ member)) called.1
    rw [Message.pieces, List.map_cons, ← Message.pieces, one]
    refine ⟨?_, ?_, widths, still⟩
    · simp only [report, List.length_cons, Nat.add_comm rest.length]
      rfl
    · simp only [log, seen, List.append_assoc, List.singleton_append]

end Dispatcher

def Report.total (reports : List Report) : Report := reports.foldr (· ++ ·) .none

theorem Report.totalCons (frames : Nat) {reports : List Report} {more : Nat}
    (rest : total reports = ⟨more, []⟩) : total (⟨frames, []⟩ :: reports) = ⟨frames + more, []⟩ := by
  rw [total, List.foldr_cons, ← total, rest]
  rfl

namespace Reassembler
variable {State : Type}

def feedAll (r : Reassembler) (d : Dispatcher State) (out : Outbox) :
    List Bytes → List (Except FrameError Report) × Reassembler × Dispatcher State
  | [] => ([], r, d)
  | chunk :: rest =>
    let (answer, r, out, d) := r.feed chunk d out
    let (answers, r, d) := feedAll r d out rest
    (answer :: answers, r, d)

structure Awaits (r : Reassembler) (w : Dispatcher (State × List Message)) (ahead : Bytes) (ms : List Message) :
    Prop where
  idle : r.Idle
  watches : w.Watches
  formed : ∀ m ∈ ms, m.WellFormed w.widths
  fits : ∀ m ∈ ms, m.payload.length < UInt32.size
  stream : pieces r.limit r.cursor (r.buffer.toBytes ++ ahead) = (Message.pieces ms, .waiting .needLength [])

section
variable {r : Reassembler} {w : Dispatcher (State × List Message)} {ms : List Message} {chunk ahead : Bytes}

theorem awaitsBetween (between : r.StandsAt (.waiting .needLength [])) (reported : r.drained = 0) (watches : w.Watches)
    (formed : ∀ m ∈ ms, m.WellFormed w.widths) (fits : ∀ m ∈ ms, m.frame.bodyLength ≤ r.limit.toNat) :
    r.Awaits w (ms.flatMap Message.encode) ms := by
  obtain ⟨alive, cursor, bytes⟩ := between
  refine ⟨⟨alive, reported, ?_⟩, watches, formed, fun m member => ?_, ?_⟩
  · rw [cursor, bytes]
    exact piecesOfNothing r.limit
  · have within : 1 + m.payload.length ≤ r.limit.toNat := fits m member
    have bound : r.limit.toNat < UInt32.size := r.limit.toNat_lt
    omega
  · rw [cursor, bytes]
    exact Message.cutMessages fits

theorem awaitsFresh {limit : UInt32} (watches : w.Watches) (formed : ∀ m ∈ ms, m.WellFormed w.widths)
    (fits : ∀ m ∈ ms, m.frame.bodyLength ≤ limit.toNat) : (fresh limit).Awaits w (ms.flatMap Message.encode) ms :=
  awaitsBetween ⟨rfl, rfl, rfl⟩ rfl watches formed fits

theorem Awaits.none (h : r.Awaits w [] ms) : ms = [] ∧ r.StandsAt (.waiting .needLength []) := by
  have stream := h.stream
  rw [List.append_nil, h.idle.cut] at stream
  obtain ⟨empty, stands⟩ := Prod.mk.inj stream
  obtain ⟨cursor, bytes⟩ := Tail.waiting.inj stands
  exact ⟨List.map_eq_nil_iff.1 empty.symm, h.idle.alive, cursor, bytes⟩

theorem Awaits.send {m : Message} (h : r.Awaits w ahead ms) (formed : m.WellFormed w.widths)
    (fits : m.frame.bodyLength ≤ r.limit.toNat) : r.Awaits w (ahead ++ m.encode) (ms ++ [m]) := by
  have alone : (fresh r.limit).Awaits w ([m].flatMap Message.encode) [m] := awaitsFresh h.watches
    (List.forall_mem_singleton.2 formed) (List.forall_mem_singleton.2 fits)
  refine ⟨h.idle, h.watches, List.forall_mem_append.2 ⟨h.formed, alone.formed⟩,
    List.forall_mem_append.2 ⟨h.fits, alone.fits⟩, ?_⟩
  have cut : pieces r.limit .needLength ([m].flatMap Message.encode) = _ := alone.stream
  rw [List.flatMap_singleton] at cut
  rw [← List.append_assoc, piecesAppend, h.stream]
  simp only [Tail.resume, List.nil_append, cut, Message.pieces, List.map_append]

theorem Awaits.divides (h : r.Awaits w (chunk ++ ahead) ms) (out : Outbox) :
    ∃ first later cursor rest, ms = first ++ later ∧
      pieces r.limit r.cursor (r.buffer.toBytes ++ chunk) = (Message.pieces first, .waiting cursor rest) ∧
      (w.deliver (Message.pieces first) out).1 = ⟨first.length, []⟩ ∧
      (w.deliver (Message.pieces first) out).2.2.state.2 = w.state.2 ++ first ∧
      (w.deliver (Message.pieces first) out).2.2.widths = w.widths ∧
      ∀ after : Reassembler, after.Idle →
        after.joined = r.past (Message.pieces first) (w.deliver (Message.pieces first) out).1 cursor rest →
        after.Awaits (w.deliver (Message.pieces first) out).2.2 ahead later := by
  have stream := h.stream
  rw [← List.append_assoc, piecesAppend] at stream
  rcases here : pieces r.limit r.cursor (r.buffer.toBytes ++ chunk) with ⟨cut, tail⟩
  rw [here] at stream
  obtain ⟨divided, ending⟩ := Prod.mk.inj stream
  obtain ⟨first, later, rfl, cutFirst, cutLater⟩ := List.map_eq_append_iff.1 divided.symm
  cases tail with
  | tooLarge size unread => cases ending
  | waiting cursor rest =>
    obtain ⟨report, log, widths, still⟩ := Dispatcher.deliverMessages h.watches
      (fun m member => h.formed m (List.mem_append_left _ member))
      (fun m member => h.fits m (List.mem_append_left _ member)) out
    refine ⟨first, later, cursor, rest, rfl, Prod.ext cutFirst.symm rfl, report, log, widths,
      fun after idle stands => ⟨idle, still, ?_, ?_, ?_⟩⟩
    · exact fun m member => widths ▸ h.formed m (List.mem_append_right _ member)
    · exact fun m member => h.fits m (List.mem_append_right _ member)
    · obtain ⟨limit, sameCursor, sameBytes⟩ := pastFields stands
      rw [limit, sameCursor, sameBytes]
      exact Prod.ext cutLater.symm ending

theorem Awaits.feed (h : r.Awaits w (chunk ++ ahead) ms) (out : Outbox) :
    ∃ (first later : List Message) (after : Reassembler) (left : Outbox) (v : Dispatcher (State × List Message)),
      r.feed chunk w out = (.ok ⟨first.length, []⟩, after, left, v) ∧ ms = first ++ later ∧
      after.Awaits v ahead later ∧ v.state.2 = w.state.2 ++ first := by
  obtain ⟨first, later, cursor, rest, same, here, report, log, _, awaits⟩ := h.divides out
  obtain ⟨after, answer, idle, stands⟩ := feedPasses h.idle here w out
  have going := awaits after idle stands
  rw [report] at answer
  exact ⟨first, later, after, _, _, answer, same, going, log⟩

theorem feedAllMessages {chunks : List Bytes} (h : r.Awaits w chunks.flatten ms) (out : Outbox) :
    ∃ reports last after, r.feedAll w out chunks = (reports.map .ok, last, after) ∧
      reports.length = chunks.length ∧ Report.total reports = ⟨ms.length, []⟩ ∧
      after.state.2 = w.state.2 ++ ms ∧ last.StandsAt (.waiting .needLength []) := by
  induction chunks generalizing r w ms out with
  | nil =>
    obtain ⟨rfl, stands⟩ := h.none
    exact ⟨[], r, w, rfl, rfl, rfl, (List.append_nil _).symm, stands⟩
  | cons chunk rest ih =>
    rw [List.flatten_cons] at h
    obtain ⟨first, later, after, left, v, answer, rfl, going, log⟩ := h.feed out
    obtain ⟨reports, last, final, answers, count, sum, seen, stands⟩ := ih going left
    refine ⟨⟨first.length, []⟩ :: reports, last, final, ?_, ?_, ?_, ?_, stands⟩
    · simp only [feedAll, answer, answers, List.map_cons]
    · rw [List.length_cons, List.length_cons, count]
    · rw [Report.totalCons _ sum, List.length_append]
    · rw [seen, log, List.append_assoc]

end

/-- Well-formed messages within the limit, sent one after the other and received in any chunks,
are seen once each and in order; every chunk is answered, and nothing is discarded or left. -/
theorem messagesDelivered (d : Dispatcher State) (out : Outbox) (limit : UInt32) (ms : List Message) (chunks : List Bytes)
    (formed : ∀ m ∈ ms, m.WellFormed d.widths) (fits : ∀ m ∈ ms, m.frame.bodyLength ≤ limit.toNat)
    (stream : chunks.flatten = ms.flatMap Message.encode) :
    ∃ reports last after, (fresh limit).feedAll d.watched out chunks = (reports.map .ok, last, after) ∧
      reports.length = chunks.length ∧ Report.total reports = ⟨ms.length, []⟩ ∧
      after.state.2 = ms ∧ last.StandsAt (.waiting .needLength []) := by
  have awaits := awaitsFresh d.watchedWatches formed fits
  rw [← stream] at awaits
  exact feedAllMessages awaits out

theorem threeMessagesDelivered :
    let ms : List Message := [.word .battery 742, .luaMsg "hit" [.float 0x7FF8000000000001, .bool true],
      .luaScripts ["a.lua", ""]]
    let stream := ms.flatMap Message.encode
    let chunks := [stream.take 2, [], (stream.drop 2).take 9, stream.drop 11]
    (∀ m ∈ ms, m.WellFormed WidthTable.standard) ∧ (∀ m ∈ ms, m.frame.bodyLength ≤ (64 : UInt32).toNat) ∧
      chunks.flatten = stream ∧
      ∃ reports last after, (fresh 64).feedAll (Dispatcher.fresh .standard ()).watched .empty chunks =
          (reports.map .ok, last, after) ∧
        reports.length = 4 ∧ Report.total reports = ⟨3, []⟩ ∧ after.state.2 = ms ∧
        last.StandsAt (.waiting .needLength []) := by
  intro ms stream chunks
  have formed : ∀ m ∈ ms, m.WellFormed WidthTable.standard := by
    intro m member
    simp only [ms, List.mem_cons, List.not_mem_nil, or_false] at member
    rcases member with rfl | rfl | rfl
    · exact ⟨rfl, rfl⟩
    · trivial
    · trivial
  have fits : ∀ m ∈ ms, m.frame.bodyLength ≤ (64 : UInt32).toNat := by decide
  have divided : chunks.flatten = stream := by decide
  exact ⟨formed, fits, divided, messagesDelivered (Dispatcher.fresh .standard ()) .empty 64 ms chunks formed fits divided⟩

end Reassembler

end RobotLink
