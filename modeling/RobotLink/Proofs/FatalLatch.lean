import Mathlib
import RobotLink.Proofs.PartialDelivery
import RobotLink.Proofs.Teardown

/-! What a hostile stream can do. A length above the limit is never remembered, so that less than one
length or one body is held whenever cutting has come to its end; once such a length was met, every
call says so and does nothing else. -/
namespace RobotLink

def Cursor.Within (limit : UInt32) : Cursor → Prop
  | .needLength => True
  | .needPayload length => length ≤ limit

theorem Cursor.neededLe {limit : UInt32} {cursor : Cursor} (within : cursor.Within limit) :
    cursor.needed ≤ max Frame.prefixLength limit.toNat := by
  cases cursor with
  | needLength => exact Nat.le_max_left ..
  | needPayload length => exact Nat.le_trans (UInt32.le_iff_toNat_le.1 within) (Nat.le_max_right ..)

namespace Cut
variable {limit : UInt32} {before after : Cursor} {stream rest : Bytes}

theorem bodyWaits {length : UInt32} (h : body length stream = .wait after rest) :
    after = .needPayload length ∧ rest.length < after.needed := by
  unfold body at h
  split at h
  next none =>
    cases h
    exact ⟨rfl, Bytes.splitNone.1 none⟩
  next => cases h
  next => cases h

theorem nextWaits (within : before.Within limit) (h : next limit before stream = .wait after rest) :
    after.Within limit ∧ rest.length < after.needed := by
  cases before with
  | needPayload length =>
    obtain ⟨rfl, short⟩ := bodyWaits h
    exact ⟨within, short⟩
  | needLength =>
    simp only [next] at h
    split at h
    next none =>
      cases h
      exact ⟨trivial, Bytes.splitNone.1 none⟩
    next =>
      split at h
      next => cases h
      next allowed =>
        obtain ⟨rfl, short⟩ := bodyWaits h
        exact ⟨UInt32.not_lt.1 allowed, short⟩

end Cut

theorem piecesWait {limit : UInt32} {before after : Cursor} {stream rest : Bytes} {cut : List Piece}
    (within : before.Within limit) (h : pieces limit before stream = (cut, .waiting after rest)) :
    after.Within limit ∧ rest.length < after.needed := by
  fun_induction pieces limit before stream generalizing cut with
  | case1 before stream after rest wait =>
    cases h
    exact Cut.nextWaits within wait
  | case2 => cases h
  | case3 before stream rest wait less later tail ahead ih | case4 before stream f rest wait less later tail ahead ih =>
    cases h
    exact ih trivial ahead

namespace Reassembler
variable {State : Type}

def Bounded (r : Reassembler) : Prop := r.cursor.Within r.limit

def Answer.error? : Answer → Option FrameError
  | .frame (.error e) | .report (.error e) => some e
  | _ => none

section
variable {r : Reassembler}

theorem Bounded.next (bounded : r.Bounded) : r.next.2.Bounded := by
  have step := nextStep r
  generalize r.next.1 = result, r.next.2 = after at step ⊢
  cases step with
  | latched => exact bounded
  | waiting alive cut => exact (piecesWait bounded cut).1
  | tooLarge => exact trivial
  | frame => exact trivial

theorem Bounded.process (bounded : r.Bounded) (d : Dispatcher State) (out : Outbox) :
    (r.process d out).2.1.Bounded ∧ ∀ report, (r.process d out).1 = .ok report →
      (r.process d out).2.1.buffer.size < (r.process d out).2.1.cursor.needed := by
  have step := processStep r d out
  generalize r.process d out = processed at step ⊢
  cases step with
  | latched => exact ⟨bounded, nofun⟩
  | tooLarge => exact ⟨trivial, nofun⟩
  | waiting alive here =>
    obtain ⟨within, short⟩ := piecesWait bounded here
    refine ⟨within, fun _ _ => ?_⟩
    rw [ByteQueue.sizeEq, afterCut, keptToBytes here]
    exact short

end

section
variable {r : Reassembler} {e : FrameError}

theorem nextFails (h : r.next.1 = .error e) : r.next.2.failed = some e := by
  have step := nextStep r
  generalize r.next.2 = after at step ⊢
  rw [h] at step
  cases step with
  | latched failed => exact failed
  | tooLarge => rfl

theorem processFails {d : Dispatcher State} {out : Outbox} (h : (r.process d out).1 = .error e) :
    (r.process d out).2.1.failed = some e := by
  have step := processStep r d out
  generalize r.process d out = processed at step h ⊢
  cases step with
  | latched failed =>
    cases h
    exact failed
  | waiting => cases h
  | tooLarge =>
    cases h
    rfl

end

namespace Session

structure Latched (e : FrameError) (t u : Session State) : Prop where
  failed : u.reassembler.failed = some e
  frozen : ∃ buffer drained, u = { t with reassembler := { t.reassembler with buffer, drained } }
  next : u.reassembler.next = (.error e, u.reassembler)
  process : ∀ {Other : Type} (d : Dispatcher Other) (out : Outbox),
    u.reassembler.process d out = (.error e, { u.reassembler with drained := 0 }, out, d)
  feed : ∀ {Other : Type} (bytes : Bytes) (d : Dispatcher Other) (out : Outbox),
    u.reassembler.feed bytes d out = (.error e, { u.reassembler.extend bytes with drained := 0 }, out, d)

section
variable {s t u : Session State} {e : FrameError}

theorem latchedOf (failed : u.reassembler.failed = some e)
    (frozen : ∃ buffer drained, u = { t with reassembler := { t.reassembler with buffer, drained } }) :
    Latched e t u := by
  have fed (bytes : Bytes) : (u.reassembler.extend bytes).failed = some e := failed
  refine ⟨failed, frozen, ?_, processLatched failed, fun bytes => processLatched (fed bytes)⟩
  simp only [Reassembler.next, failed]

theorem processedLatched (failed : u.reassembler.failed = some e) :
    u.processed.2 = { u with reassembler := { u.reassembler with drained := 0 } } := by
  have none : (u.reassembler.processEach u.dispatcher u.outbox).1 = [] := by
    obtain ⟨size, limit⟩ := e
    rw [processMeets, outlookFailed failed]
  simp only [processed, processLatched failed, none, List.map_nil, List.append_nil]

theorem feedProcessed (s : Session State) (bytes : Bytes) :
    s.apply (.feed bytes) = { s with reassembler := s.reassembler.extend bytes }.processed := rfl

theorem Latched.call (h : Latched e t u) (call : Call) : Latched e t (u.apply call).2 := by
  obtain ⟨buffer, drained, same⟩ := h.frozen
  cases call with
  | extend bytes =>
    refine latchedOf h.failed ⟨buffer.push bytes, drained, ?_⟩
    rw [same]
    rfl
  | next =>
    simp only [apply, h.next]
    exact h
  | process =>
    rw [apply, processedLatched h.failed]
    refine latchedOf h.failed ⟨buffer, 0, ?_⟩
    rw [same]
  | feed bytes =>
    rw [feedProcessed, processedLatched (u := { u with reassembler := u.reassembler.extend bytes }) h.failed]
    refine latchedOf h.failed ⟨buffer.push bytes, 0, ?_⟩
    rw [same]
    rfl

theorem Latched.run (h : Latched e t u) (later : List Call) : Latched e t (u.run later) := by
  induction later generalizing u with
  | nil => exact h
  | cons call rest ih => exact ih (h.call call)

theorem processedFails (h : s.processed.1.error? = some e) : s.processed.2.reassembler.failed = some e := by
  have fails := @processFails _ s.reassembler e s.dispatcher s.outbox
  rcases asked : s.reassembler.process s.dispatcher s.outbox with ⟨result, r, left, d⟩
  rw [asked] at fails
  simp only [processed, asked] at h ⊢
  rcases result with first | report
  · cases h
    exact fails rfl
  · cases h

-- The error is that of the call itself, whether it was met now or remembered.
theorem callLatches {call : Call} (h : (s.apply call).1.error? = some e) :
    Latched e (s.apply call).2 (s.apply call).2 := by
  refine latchedOf ?_ ⟨_, _, rfl⟩
  cases call with
  | extend bytes => cases h
  | next =>
    have fails := nextFails (r := s.reassembler) (e := e)
    rcases asked : s.reassembler.next with ⟨result, r⟩
    rw [asked] at fails
    simp only [apply, asked] at h ⊢
    rcases result with first | _ | f
    · cases h
      exact fails rfl
    all_goals cases h
  | process => exact processedFails h
  | feed bytes => exact processedFails (s := { s with reassembler := s.reassembler.extend bytes }) h

theorem boundedCall (bounded : s.reassembler.Bounded) (call : Call) : (s.apply call).2.reassembler.Bounded := by
  cases call with
  | extend bytes => exact bounded
  | next =>
    have after := bounded.next
    rcases asked : s.reassembler.next with ⟨result, r⟩
    rw [asked] at after
    simp only [apply, asked]
    rcases result with e | _ | f <;> exact after
  | process => exact (bounded.process s.dispatcher s.outbox).1
  | feed bytes => exact (Bounded.process (r := s.reassembler.extend bytes) bounded s.dispatcher s.outbox).1

theorem boundedRun (bounded : s.reassembler.Bounded) (calls : List Call) : (s.run calls).reassembler.Bounded := by
  induction calls generalizing s with
  | nil => exact bounded
  | cons call rest ih => exact ih (boundedCall bounded call)

theorem shortCall {call : Call} {report : Report} (bounded : s.reassembler.Bounded)
    (h : (s.apply call).1 = .report (.ok report)) :
    (s.apply call).2.reassembler.buffer.size < (s.apply call).2.reassembler.cursor.needed := by
  cases call with
  | extend bytes => cases h
  | next =>
    rcases asked : s.reassembler.next with ⟨e | _ | f, r⟩ <;>
    · simp only [apply, asked] at h
      cases h
  | process => exact (bounded.process s.dispatcher s.outbox).2 report (Answer.report.inj h)
  | feed bytes =>
    exact (Bounded.process (r := s.reassembler.extend bytes) bounded s.dispatcher s.outbox).2 report (Answer.report.inj h)

end

end Session

end Reassembler

namespace Connection
variable {State : Type} {limit : UInt32} {c : Connection}

def Bounded (limit : UInt32) (c : Connection) : Prop := ∀ r, c.cursor = some r → r.limit = limit ∧ r.Bounded

theorem Bounded.used (bounded : c.Bounded limit) (sound : c.Sound) (u : Use State) : (c.use u).Bounded limit := by
  have queued (frames : List Bytes) : (frames.foldl queue c).Bounded limit := by
    cases isOpen : c.isOpen with
    | false =>
      rw [queueNone frames isOpen]
      exact bounded
    | true =>
      obtain ⟨pending, same, _⟩ := queueOpen frames isOpen
      rw [same]
      exact bounded
  cases u with
  | queue bytes => exact queued [bytes]
  | send m => exact queued [m.encode]
  | flush =>
    intro r cursor
    exact bounded r (c.flushKeeps.2.symm.trans cursor)
  | close reason =>
    intro r cursor
    have shut := (c.closeCloses reason).1
    rw [isOpen, show (c.close reason).cursor = some r from cursor] at shut
    cases shut
  | poll d out =>
    have step := pollEnds sound.resting d out
    rw [use]
    generalize c.poll d out = after at step ⊢
    cases step with
    | gone => exact bounded
    | loses =>
      intro r same
      cases same
    | @stays r next last rest reads cursor stays ahead idle stands =>
      obtain ⟨sameLimit, sameCursor, _⟩ := Reassembler.pastFields stands
      obtain ⟨limits, within⟩ := bounded r cursor
      have within' : last.Within r.limit := (piecesWait within ahead).1
      intro after same
      cases same
      exact ⟨sameLimit.trans limits, by rw [Reassembler.Bounded, sameLimit, sameCursor]; exact within'⟩

theorem Bounded.ran (bounded : c.Bounded limit) (sound : c.Sound) (uses : List (Use State)) :
    (c.run uses).Bounded limit := by
  induction uses generalizing c with
  | nil => exact bounded
  | cons u rest ih => exact ih (bounded.used sound u) (sound.used u).1

theorem Bounded.short {r : Reassembler} (bounded : c.Bounded limit) (sound : c.Sound) (cursor : c.cursor = some r) :
    r.buffer.size < max Frame.prefixLength limit.toNat := by
  obtain ⟨rfl, within⟩ := bounded r cursor
  have short := (piecesWait within (sound.resting r cursor).cut).2
  rw [← ByteQueue.sizeEq] at short
  exact Nat.lt_of_lt_of_le short (Cursor.neededLe within)

end Connection

namespace Reassembler
variable {State : Type}

/-- What is remembered and what is held are bounded by the limit until a length above it is met, and from
then on every call answers with that length. -/
theorem boundedUntilLatched (limit : UInt32) (d : Dispatcher State) (out : Outbox) (calls : List Call) :
    let s := (Session.start limit d out).run calls
    (∀ length, s.reassembler.cursor = .needPayload length → length ≤ limit) ∧
      (∀ call report, (s.apply call).1 = .report (.ok report) →
        (s.apply call).2.reassembler.buffer.size < max Frame.prefixLength limit.toNat) ∧
      (∀ call e, (s.apply call).1.error? = some e →
        (∃ size, e = .tooLarge size limit) ∧
          ∀ later, Session.Latched e (s.apply call).2 ((s.apply call).2.run later)) ∧
      ∀ stream peer (uses : List (Connection.Use State)) r,
        ((Connection.fresh stream peer limit).run uses).cursor = some r →
          r.buffer.size < max Frame.prefixLength limit.toNat := by
  intro s
  have bounded : s.reassembler.Bounded := Session.boundedRun (s := Session.start limit d out) trivial calls
  have tracks := (Session.tracksStart limit d out).onRun calls
  have limits : s.reassembler.limit = limit := tracks.sameLimit
  refine ⟨fun length cursor => ?_, fun call report answer => ?_, fun call e error => ?_,
    fun stream peer uses r cursor => ?_⟩
  · rw [Bounded, cursor, limits] at bounded
    exact bounded
  · have within := Session.boundedCall bounded call
    rw [Bounded, (tracks.onCall call).1.sameLimit] at within
    exact Nat.lt_of_lt_of_le (Session.shortCall bounded answer) (Cursor.neededLe within)
  · have latched := Session.callLatches error
    obtain ⟨_, size, same⟩ := (tracks.onCall call).1.latched e latched.failed
    exact ⟨⟨size, same⟩, latched.run⟩
  · have fresh : (Connection.fresh stream peer limit).Bounded limit := fun r same => by
      cases same
      exact ⟨rfl, trivial⟩
    have sound := Connection.soundFresh stream peer limit
    exact (fresh.ran sound uses).short (sound.ran uses).1 cursor

theorem eightBytesHeld :
    let d := Dispatcher.fresh .standard ()
    let s := (Session.start 8 d .empty).run [.extend [3, 0, 0, 0], .next]
    let fed := (s.apply (.feed [33, 1, 2, 9, 0, 0])).2
    let e := FrameError.tooLarge 9 8
    let stream : Stream := ⟨[.data [8, 0, 0, 0, 33, 1, 2], .interrupted, .data [3, 4, 5, 6]], [], [], []⟩
    let c := (Connection.fresh stream "peer" 8).run [.poll d .empty]
    s.reassembler.cursor = .needPayload 3 ∧ (3 : UInt32) ≤ 8 ∧
      fed.reassembler.buffer.size < max Frame.prefixLength 8 ∧
      (fed.apply (.feed [0])).1.error? = some e ∧
      Session.Latched e (fed.apply (.feed [0])).2 ((fed.apply (.feed [0])).2.run [.extend [1], .next, .process]) ∧
      ∃ r, c.cursor = some r ∧ r.buffer.size < max Frame.prefixLength 8 := by
  intro d s fed e stream c
  have all (calls : List Call) := boundedUntilLatched 8 d .empty calls
  have remembered : s.reassembler.cursor = .needPayload 3 := by unfold s d; cbv
  have answered : (s.apply (.feed [33, 1, 2, 9, 0, 0])).1 = .report (.ok ⟨1, [⟨some 33, 2, .desync⟩]⟩) := by
    unfold s d; cbv
  have error : (fed.apply (.feed [0])).1.error? = some e := by unfold fed s d e; cbv
  have isOpen : c.isOpen := by unfold c stream d; cbv
  obtain ⟨r, cursor⟩ := Option.isSome_iff_exists.1 isOpen
  obtain ⟨within, short, _, connection⟩ := all [.extend [3, 0, 0, 0], .next]
  obtain ⟨_, _, latched, _⟩ := all [.extend [3, 0, 0, 0], .next, .feed [33, 1, 2, 9, 0, 0]]
  exact ⟨remembered, within 3 remembered, short _ _ answered, error, (latched _ e error).2 _, r, cursor,
    connection stream "peer" [.poll d .empty] _ cursor⟩

end Reassembler

end RobotLink
