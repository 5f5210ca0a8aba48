import RobotLink.ByteQueue
import RobotLink.Dispatcher

/-! Frames out of a byte stream that arrives in any pieces. A cursor waits for a length or for a
body; a frame is cut on its declared length before anything decodes it, so that a bad frame costs
no other. A length above the limit ends the stream for good. -/
namespace RobotLink

inductive FrameError where
  | tooLarge (size limit : UInt32)
  deriving DecidableEq, Repr

def FrameError.message : FrameError → String
  | .tooLarge size limit =>
    "frame too large: " ++ Text.decimal size.toNat ++ " bytes (max " ++ Text.decimal limit.toNat ++ " bytes)"

inductive Cursor where
  | needLength
  | needPayload (length : UInt32)
  deriving DecidableEq, Repr

def Cursor.needed : Cursor → Nat
  | .needLength => Frame.prefixLength
  | .needPayload length => length.toNat

inductive Cut where
  | wait (cursor : Cursor) (rest : Bytes)
  | tooLarge (size : UInt32) (rest : Bytes)
  | empty (rest : Bytes)
  | frame (frame : Frame) (rest : Bytes)
  deriving DecidableEq, Repr

namespace Cut

def body (length : UInt32) (stream : Bytes) : Cut :=
  match Bytes.split? length.toNat stream with
  | none => .wait (.needPayload length) stream
  | some ([], rest) => .empty rest
  | some (opcode :: payload, rest) => .frame ⟨opcode, payload⟩ rest

def next (limit : UInt32) : Cursor → Bytes → Cut
  | .needPayload length, stream => body length stream
  | .needLength, stream =>
    match Bytes.split? Frame.prefixLength stream with
    | none => .wait .needLength stream
    | some (head, rest) =>
      let length := (Bytes.toNat head).toUInt32
      if limit < length then .tooLarge length rest else body length rest

theorem nextOfShort {limit : UInt32} {cursor : Cursor} {stream : Bytes}
    (short : stream.length < cursor.needed) : next limit cursor stream = .wait cursor stream := by
  cases cursor with
  | needLength =>
    have none : Bytes.split? Frame.prefixLength stream = none := Bytes.splitNone.2 short
    simp only [next, none]
  | needPayload length =>
    have none : Bytes.split? length.toNat stream = none := Bytes.splitNone.2 short
    simp only [next, body, none]

def measure : Cursor → Bytes → Nat
  | .needLength, stream => stream.length
  | .needPayload _, stream => stream.length + 1

theorem bodyLe {length : UInt32} {stream rest : Bytes}
    (h : body length stream = .empty rest ∨ ∃ f, body length stream = .frame f rest) :
    rest.length ≤ stream.length := by
  unfold body at h
  split at h
  next => simp at h
  next split =>
    obtain ⟨rfl, _⟩ := Bytes.splitSome.1 split
    simp only [Cut.empty.injEq, reduceCtorEq, exists_false, or_false] at h
    simp [h]
  next split =>
    obtain ⟨rfl, _⟩ := Bytes.splitSome.1 split
    simp only [reduceCtorEq, Cut.frame.injEq, exists_eq_left', false_or] at h
    simp only [← h, List.length_append]
    omega

theorem nextLt {limit : UInt32} {cursor : Cursor} {stream rest : Bytes}
    (h : next limit cursor stream = .empty rest ∨ ∃ f, next limit cursor stream = .frame f rest) :
    measure .needLength rest < measure cursor stream := by
  cases cursor with
  | needPayload length => exact Nat.lt_succ_of_le (bodyLe h)
  | needLength =>
    simp only [next] at h
    split at h
    next => simp at h
    next head tail split =>
      obtain ⟨rfl, len⟩ := Bytes.splitSome.1 split
      have less : rest.length ≤ tail.length := by
        split at h
        next => simp at h
        next => exact bodyLe h
      simp only [measure, List.length_append, len, Frame.prefixLength]
      omega

end Cut

inductive Piece where
  | empty
  | frame (frame : Frame)
  deriving DecidableEq, Repr

def Piece.isFrame : Piece → Bool
  | .empty => false
  | .frame _ => true

inductive Tail where
  | waiting (cursor : Cursor) (rest : Bytes)
  | tooLarge (size : UInt32) (rest : Bytes)
  deriving DecidableEq, Repr

def pieces (limit : UInt32) (cursor : Cursor) (stream : Bytes) : List Piece × Tail :=
  match h : Cut.next limit cursor stream with
  | .wait cursor rest => ([], .waiting cursor rest)
  | .tooLarge size rest => ([], .tooLarge size rest)
  | .empty rest =>
    have := Cut.nextLt (.inl h)
    let (later, tail) := pieces limit .needLength rest
    (.empty :: later, tail)
  | .frame f rest =>
    have := Cut.nextLt (.inr ⟨f, h⟩)
    let (later, tail) := pieces limit .needLength rest
    (.frame f :: later, tail)
termination_by Cut.measure cursor stream

theorem piecesOfShort {limit : UInt32} {cursor : Cursor} {stream : Bytes}
    (short : stream.length < cursor.needed) :
    pieces limit cursor stream = ([], .waiting cursor stream) := by
  have wait : Cut.next limit cursor stream = .wait cursor stream := Cut.nextOfShort short
  rw [pieces]
  split
  all_goals simp_all

inductive DiscardReason where
  | desync
  | unknownOpcode
  | malformed
  | missingWidth
  | empty
  deriving DecidableEq, Repr

def DiscardReason.name : DiscardReason → String
  | .desync => "Desync"
  | .unknownOpcode => "UnknownOpcode"
  | .malformed => "Malformed"
  | .missingWidth => "MissingWidth"
  | .empty => "Empty"

structure Discard where
  opcode : Option UInt8
  bytes : Nat
  reason : DiscardReason
  deriving DecidableEq, Repr

def Discard.ofEmpty : Discard := ⟨none, 0, .empty⟩

structure Report where
  frames : Nat
  discards : List Discard
  deriving DecidableEq, Repr

namespace Report

def none : Report := ⟨0, []⟩

instance : Append Report := ⟨fun a b => ⟨a.frames + b.frames, a.discards ++ b.discards⟩⟩

def ofEmpty (count : Nat) : Report := ⟨count, List.replicate count .ofEmpty⟩

def discardedBytes (r : Report) : Nat := r.discards.foldr (fun d n => d.bytes + n) 0

end Report

def Frame.discard? (f : Frame) : Except DispatchError Nat → Option Discard
  | .ok consumed =>
    if consumed < f.payload.length then some ⟨f.opcode, f.payload.length - consumed, .desync⟩ else none
  | .error (.unknownOpcode _) => some ⟨f.opcode, f.payload.length, .unknownOpcode⟩
  | .error (.missingWidth _) => some ⟨f.opcode, f.payload.length, .missingWidth⟩
  | .error (.decode _) => some ⟨f.opcode, f.payload.length, .malformed⟩

def Dispatcher.deliver {State : Type} : List Piece → Dispatcher State → Outbox →
    Report × Outbox × Dispatcher State
  | [], d, out => (.none, out, d)
  | .empty :: rest, d, out =>
    let (report, after) := deliver rest d out
    (.ofEmpty 1 ++ report, after)
  | .frame f :: rest, d, out =>
    let (result, out, d) := d.dispatch f out
    let (report, after) := deliver rest d out
    (⟨1, (f.discard? result).toList⟩ ++ report, after)

structure Reassembler where
  buffer : ByteQueue
  cursor : Cursor
  limit : UInt32
  failed : Option FrameError
  drained : Nat
  frames : Nat
  discardedBytes : Nat
  deriving DecidableEq, Repr

namespace Reassembler

def fresh (limit : UInt32) : Reassembler := ⟨.empty, .needLength, limit, none, 0, 0, 0⟩

def extend (r : Reassembler) (bytes : Bytes) : Reassembler := { r with buffer := r.buffer.push bytes }

def starved (r : Reassembler) : Bool := r.buffer.size < r.cursor.needed

def firstFrame (limit : UInt32) (cursor : Cursor) (stream : Bytes) : Nat × (Frame × Bytes ⊕ Tail) :=
  match h : Cut.next limit cursor stream with
  | .wait cursor rest => (0, .inr (.waiting cursor rest))
  | .tooLarge size rest => (0, .inr (.tooLarge size rest))
  | .frame f rest => (0, .inl (f, rest))
  | .empty rest =>
    have := Cut.nextLt (.inl h)
    let (passed, found) := firstFrame limit .needLength rest
    (passed + 1, found)
termination_by Cut.measure cursor stream

def settle (r : Reassembler) : Tail → Option FrameError × Reassembler
  | .waiting cursor rest => (none, { r with cursor, buffer := .ofBytes rest })
  | .tooLarge size rest =>
    let e := .tooLarge size r.limit
    (some e, { r with cursor := .needLength, buffer := .ofBytes rest, failed := some e })

def next (r : Reassembler) : Except FrameError (Option Frame) × Reassembler :=
  match r.failed with
  | some e => (.error e, r)
  | none =>
    if r.starved then (.ok none, r)
    else
      let (passed, found) := firstFrame r.limit r.cursor r.buffer.toBytes
      let r := { r with drained := r.drained + passed }
      match found with
      | .inl (f, rest) =>
        (.ok (some f), { r with cursor := .needLength, buffer := .ofBytes rest, frames := r.frames + 1 })
      | .inr tail =>
        match r.settle tail with
        | (none, r) => (.ok none, r)
        | (some e, r) => (.error e, r)

/-- Dispatches every complete frame. A fatal length is met after the frames in front of it have
been dispatched; their report is then lost. -/
def process {State : Type} (r : Reassembler) (d : Dispatcher State) (out : Outbox) :
    Except FrameError Report × Reassembler × Outbox × Dispatcher State :=
  match r.failed with
  | some e => (.error e, { r with drained := 0 }, out, d)
  | none =>
    if r.starved then (.ok (.ofEmpty r.drained), { r with drained := 0 }, out, d)
    else
      let (cut, tail) := pieces r.limit r.cursor r.buffer.toBytes
      let (report, out, d) := d.deliver cut out
      let settled := { r with
        drained := 0
        frames := r.frames + cut.countP Piece.isFrame
        discardedBytes := r.discardedBytes + report.discardedBytes }.settle tail
      match settled with
      | (none, after) => (.ok (.ofEmpty r.drained ++ report), after, out, d)
      | (some e, after) => (.error e, after, out, d)

def feed {State : Type} (r : Reassembler) (bytes : Bytes) (d : Dispatcher State) (out : Outbox) :
    Except FrameError Report × Reassembler × Outbox × Dispatcher State :=
  (r.extend bytes).process d out

end Reassembler

end RobotLink
