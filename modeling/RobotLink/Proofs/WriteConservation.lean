import RobotLink.Proofs.Teardown

/-! The bytes on their way out. A flush offers the stream what it has not accepted yet, again and again,
until all is accepted or one answer stops it; over any uses of a connection, what was accepted and what
is pending are all that was queued, in its order. -/
namespace RobotLink

def WriteResult.error? : WriteResult → Option IoError
  | .accept count => if count = 0 then some .writeZero else none
  | .wouldBlock | .interrupted => none
  | .failed message => some (.reset message)

namespace Stream

structure Offer where
  offered : Bytes
  answer : WriteResult
  deriving DecidableEq, Repr

def Offer.taken (o : Offer) : Bytes :=
  match o.answer with
  | .accept count => o.offered.take count
  | .wouldBlock | .interrupted | .failed _ => []

def offers : List WriteResult → Bytes → List Offer
  | _, [] => []
  | [], b :: rest => [⟨b :: rest, .accept (b :: rest).length⟩]
  | .accept count :: writes, b :: rest =>
    ⟨b :: rest, .accept count⟩ :: if count = 0 then [] else offers writes ((b :: rest).drop count)
  | .wouldBlock :: _, b :: rest => [⟨b :: rest, .wouldBlock⟩]
  | .interrupted :: writes, b :: rest => ⟨b :: rest, .interrupted⟩ :: offers writes (b :: rest)
  | .failed message :: _, b :: rest => [⟨b :: rest, .failed message⟩]

structure Answered (writes : List WriteResult) (offers : List Offer) (later : List WriteResult) : Prop where
  each : ∀ (i : Nat) (o : Offer), offers[i]? = some o → o.answer = writes[i]?.getD (.accept o.offered.length)
  rest : later = writes.drop offers.length

structure Attempts (pending : Bytes) (offers : List Offer) (left : Bytes) (e : Option IoError) : Prop where
  conserved : offers.flatMap Offer.taken ++ left = pending
  unaccepted : ∀ before o after, offers = before ++ o :: after → before.flatMap Offer.taken ++ o.offered = pending
  blocked : e = none → left ≠ [] → offers.getLast?.map Offer.answer = some .wouldBlock
  failed : ∀ o ∈ offers, ∀ error, o.answer.error? = some error → e = some error ∧ left = o.offered

theorem answeredNothing (writes : List WriteResult) : Answered writes [] writes := ⟨nofun, rfl⟩

theorem Answered.behind {writes unasked : List WriteResult} {later : List Offer} (next : Answered writes later unasked)
    (o : Offer) : Answered (o.answer :: writes) (o :: later) unasked := by
  refine ⟨fun i p met => ?_, next.rest⟩
  cases i with
  | zero =>
    cases met
    rfl
  | succ i => exact next.each i p met

section
variable {pending left : Bytes} {o : Offer} {later : List Offer} {e : Option IoError}

theorem attemptsEmptied : Attempts [] [] [] none :=
  ⟨rfl, fun _ _ _ same => absurd same (by simp), fun _ some => absurd rfl some,
    fun _ member => absurd member List.not_mem_nil⟩

theorem attemptsStopped (nothing : o.taken = []) (blocked : o.answer.error? = none → o.answer = .wouldBlock) :
    Attempts o.offered [o] o.offered o.answer.error? := by
  refine ⟨by simp [nothing], fun before p after same => ?_, fun fine _ => congrArg some (blocked fine), ?_⟩
  · cases before with
    | nil =>
      cases same
      rfl
    | cons q before => simp at same
  · intro p member error fails
    cases List.mem_singleton.1 member
    exact ⟨fails, rfl⟩

theorem Attempts.behind (next : Attempts pending later left e) (takes : o.taken ++ pending = o.offered)
    (fine : o.answer.error? = none) : Attempts o.offered (o :: later) left e := by
  refine ⟨?_, fun before p after same => ?_, fun none some => ?_, ?_⟩
  · rw [List.flatMap_cons, List.append_assoc, next.conserved, takes]
  · cases before with
    | nil =>
      cases same
      rfl
    | cons q before =>
      obtain ⟨rfl, behind⟩ := List.cons.inj same
      rw [List.flatMap_cons, List.append_assoc, next.unaccepted before p after behind, takes]
  · have last := next.blocked none some
    obtain ⟨p, ends, blocks⟩ := Option.map_eq_some_iff.1 last
    rw [List.getLast?_cons, ends]
    exact congrArg Option.some blocks
  · intro p member error fails
    rcases List.mem_cons.1 member with rfl | member
    · rw [fine] at fails
      cases fails
    · exact next.failed p member error fails

theorem Attempts.hiding (h : Attempts pending later left e) (other : Option IoError) :
    Attempts pending later left (e.or other) := by
  refine ⟨h.conserved, h.unaccepted, fun none => h.blocked (Option.or_eq_none_iff.1 none).1, ?_⟩
  intro o member error fails
  obtain ⟨rfl, same⟩ := h.failed o member error fails
  exact ⟨rfl, same⟩

end

theorem goAttempts (writes : List WriteResult) (pending : Bytes) :
    (write.go writes pending).1 = (offers writes pending).flatMap Offer.taken ∧
      Answered writes (offers writes pending) (write.go writes pending).2.1 ∧
      Attempts pending (offers writes pending) (write.go writes pending).2.2.1 (write.go writes pending).2.2.2 := by
  fun_induction write.go writes pending with
  | case1 writes =>
    rw [offers]
    exact ⟨rfl, answeredNothing writes, attemptsEmptied⟩
  | case2 pending some =>
    obtain ⟨b, rest, rfl⟩ := List.exists_cons_of_ne_nil some
    let o : Offer := ⟨b :: rest, .accept (b :: rest).length⟩
    have takes : o.taken = b :: rest := List.take_length
    have answered : Answered [] [o] [] := by
      refine ⟨fun i p met => ?_, rfl⟩
      cases i with
      | zero =>
        cases met
        rfl
      | succ i => cases met
    have attempts : Attempts o.offered [o] [] none :=
      attemptsEmptied.behind ((List.append_nil _).trans takes) rfl
    rw [offers, List.flatMap_singleton]
    exact ⟨takes.symm, answered, attempts⟩
  | case3 writes b rest =>
    let o : Offer := ⟨b :: rest, .accept 0⟩
    have refused : o.answer.error? ≠ none := Option.some_ne_none IoError.writeZero
    rw [offers, if_pos rfl]
    exact ⟨rfl, (answeredNothing writes).behind o, attemptsStopped (o := o) rfl fun none => absurd none refused⟩
  | case4 count writes b rest positive taken later left e found ih =>
    let o : Offer := ⟨b :: rest, .accept count⟩
    have takes : o.taken ++ (b :: rest).drop count = o.offered := List.take_append_drop ..
    rw [found] at ih
    obtain ⟨same, answered, attempts⟩ := ih
    rw [offers, if_neg positive]
    exact ⟨congrArg _ same, answered.behind o, attempts.behind takes (if_neg positive)⟩
  | case5 writes b rest =>
    let o : Offer := ⟨b :: rest, .wouldBlock⟩
    exact ⟨rfl, (answeredNothing writes).behind o, attemptsStopped (o := o) rfl fun _ => rfl⟩
  | case6 writes b rest ih =>
    let o : Offer := ⟨b :: rest, .interrupted⟩
    obtain ⟨same, answered, attempts⟩ := ih
    exact ⟨same, answered.behind o, attempts.behind (o := o) rfl rfl⟩
  | case7 message writes b rest =>
    let o : Offer := ⟨b :: rest, .failed message⟩
    have failed : o.answer.error? ≠ none := Option.some_ne_none (IoError.reset message)
    exact ⟨rfl, (answeredNothing writes).behind o, attemptsStopped (o := o) rfl fun none => absurd none failed⟩

end Stream

namespace Connection
variable {State : Type}

def offers (c : Connection) : List Stream.Offer := Stream.offers c.stream.writes c.pending.toBytes

theorem flushAttempts (c : Connection) :
    c.flush.2.stream.written = c.stream.written ++ c.offers.flatMap Stream.Offer.taken ∧
      Stream.Answered c.stream.writes c.offers c.flush.2.stream.writes ∧
      Stream.Attempts c.pending.toBytes c.offers c.flush.2.pending.toBytes c.flush.1 := by
  obtain ⟨taken, answered, attempts⟩ := Stream.goAttempts c.stream.writes c.pending.toBytes
  have written := congrArg (c.stream.written ++ ·) taken
  change (c.stream.write c.pending.toBytes).1.written = _ at written
  change Stream.Answered _ _ (c.stream.write c.pending.toBytes).1.writes at answered
  change Stream.Attempts _ _ (c.stream.write c.pending.toBytes).2.1 (c.stream.write c.pending.toBytes).2.2 at attempts
  unfold flush
  rcases wrote : c.stream.write c.pending.toBytes with ⟨stream, left, e⟩
  rw [wrote] at written answered attempts
  cases e with
  | some e =>
    rw [ByteQueue.toBytesOfBytes]
    exact ⟨written, answered, attempts⟩
  | none =>
    obtain ⟨sameWritten, sameWrites⟩ := stream.flushPasses
    simp only [sameWritten, sameWrites, ByteQueue.toBytesOfBytes]
    exact ⟨written, answered, attempts.hiding stream.flush.2⟩

def Use.bytes : Use State → Bytes
  | .queue bytes => bytes
  | .send m => m.encode
  | .poll .. | .flush | .close _ => []

def Use.sends : Use State → Bool
  | .queue _ | .send _ | .flush => true
  | .poll .. | .close _ => false

def queuedBy (c : Connection) : List (Use State) → Bytes
  | [] => []
  | u :: rest => (if c.isOpen then u.bytes else []) ++ queuedBy (c.use u) rest

def outgoing (c : Connection) : Bytes := c.stream.written ++ c.pending.toBytes

section
variable {c : Connection}

theorem closeOutgoing (c : Connection) (reason : String) : (c.close reason).outgoing = c.stream.written := by
  have stream : (c.close reason).stream = c.stream := by unfold close; split <;> rfl
  rw [outgoing, stream, (c.closeCloses reason).2]
  exact List.append_nil _

theorem queueOutgoing (c : Connection) (bytes : Bytes) :
    (c.queue bytes).isOpen = c.isOpen ∧ (c.queue bytes).outgoing = c.outgoing ++ if c.isOpen then bytes else [] := by
  cases isOpen : c.isOpen with
  | false =>
    have none : c.queue bytes = c := if_neg (by simp [isOpen])
    rw [none]
    exact ⟨isOpen, (List.append_nil _).symm⟩
  | true =>
    have one : c.queue bytes = { c with pending := c.pending.push bytes } := if_pos isOpen
    rw [one]
    refine ⟨isOpen, ?_⟩
    rw [outgoing, ByteQueue.toBytesPush, ← List.append_assoc]
    rfl

theorem useOutgoing (c : Connection) (u : Use State) :
    (c.use u).isOpen = c.isOpen ∧ (c.use u).outgoing = c.outgoing ++ (if c.isOpen then u.bytes else []) ∨
      u.sends = false ∧ (c.use u).isOpen = false ∧ (c.use u).outgoing = c.stream.written := by
  have nothing : (if c.isOpen then [] else [] : Bytes) = [] := ite_self []
  cases u with
  | queue bytes => exact .inl (c.queueOutgoing bytes)
  | send m => exact .inl (c.queueOutgoing m.encode)
  | close reason => exact .inr ⟨rfl, (c.closeCloses reason).1, c.closeOutgoing reason⟩
  | flush =>
    obtain ⟨kept, cursor⟩ := c.flushKeeps
    refine .inl ⟨congrArg Option.isSome cursor, ?_⟩
    rw [Use.bytes, nothing, List.append_nil]
    exact kept
  | poll d out =>
    have step := c.pollStep d out
    rw [use, Use.bytes, nothing, List.append_nil]
    generalize c.poll d out = polled at step
    cases step with
    | gone => exact .inl ⟨rfl, rfl⟩
    | lost => exact .inr ⟨rfl, (closeCloses _ _).1, closeOutgoing ..⟩
    | stays cursor => exact .inl ⟨by rw [isOpen, isOpen, cursor]; rfl, rfl⟩

theorem queuedClosed (closed : c.isOpen = false) (uses : List (Use State)) : c.queuedBy uses = [] := by
  induction uses generalizing c with
  | nil => rfl
  | cons u rest ih =>
    have still : (c.use u).isOpen = false := by
      rcases c.useOutgoing u with ⟨same, _⟩ | ⟨_, shut, _⟩
      · exact same.trans closed
      · exact shut
    rw [queuedBy, ih still, closed]
    rfl

theorem runOutgoing (c : Connection) (uses : List (Use State)) :
    (c.run uses).outgoing <+: c.outgoing ++ c.queuedBy uses ∧
      ((c.run uses).isOpen → c.isOpen ∧ (c.run uses).outgoing = c.outgoing ++ c.queuedBy uses) := by
  induction uses generalizing c with
  | nil => exact ⟨⟨[], rfl⟩, fun isOpen => ⟨isOpen, (List.append_nil _).symm⟩⟩
  | cons u rest ih =>
    obtain ⟨first, whole⟩ := @ih (c.use u)
    rw [queuedBy, ← List.append_assoc]
    rcases c.useOutgoing u with ⟨same, kept⟩ | ⟨_, shut, dropped⟩
    · rw [kept] at first whole
      rw [same] at whole
      exact ⟨first, whole⟩
    · -- Lost by this use: nothing is queued behind it, and what it drops stood behind what was accepted.
      rw [queuedClosed shut, List.append_nil, dropped] at first
      refine ⟨first.trans ?_, fun isOpen => ?_⟩
      · rw [outgoing, List.append_assoc, List.append_assoc]
        exact List.prefix_append ..
      · have reopened := (whole isOpen).1
        rw [shut] at reopened
        cases reopened

theorem runSending (isOpen : c.isOpen) {uses : List (Use State)} (sends : ∀ u ∈ uses, u.sends) :
    (c.run uses).isOpen ∧ c.queuedBy uses = uses.flatMap Use.bytes := by
  induction uses generalizing c with
  | nil => exact ⟨isOpen, rfl⟩
  | cons u rest ih =>
    obtain ⟨here, later⟩ := List.forall_mem_cons.1 sends
    rcases c.useOutgoing u with ⟨same, _⟩ | ⟨never, _⟩
    · obtain ⟨still, queued⟩ := ih (same.trans isOpen) later
      refine ⟨still, ?_⟩
      rw [queuedBy, queued, if_pos isOpen, List.flatMap_cons]
    · rw [here] at never
      cases never

end

/-- No byte on its way out is lost, doubled or moved: not by queueing, not by any run of flushes however their
writes are answered; only the end of the connection drops what the stream has not accepted. -/
theorem writesConserved (c : Connection) (uses : List (Use State)) :
    let l := c.run uses
    let queued := c.stream.written ++ c.pending.toBytes ++ c.queuedBy uses
    (c.isOpen → (∀ u ∈ uses, u.sends) → l.isOpen ∧ c.queuedBy uses = uses.flatMap Use.bytes) ∧
      (l.isOpen → l.stream.written ++ l.pending.toBytes = queued) ∧ l.stream.written <+: queued ∧
      l.flush.2.stream.written = l.stream.written ++ l.offers.flatMap Stream.Offer.taken ∧
      Stream.Answered l.stream.writes l.offers l.flush.2.stream.writes ∧
      Stream.Attempts l.pending.toBytes l.offers l.flush.2.pending.toBytes l.flush.1 := by
  intro l queued
  obtain ⟨first, whole⟩ := c.runOutgoing uses
  have accepted : l.stream.written <+: queued := (List.prefix_append ..).trans first
  exact ⟨fun isOpen sends => runSending isOpen sends, fun isOpen => (whole isOpen).2, accepted, l.flushAttempts⟩

theorem refusedWriteKept :
    let stream : Stream := ⟨[], [.accept 2, .interrupted, .accept 0, .accept 1, .wouldBlock], [], []⟩
    let c := fresh stream "peer" 64
    let uses : List (Use Unit) := [.queue [1, 2], .queue [3], .send .getScripts]
    let l := c.run uses
    c.isOpen ∧ (∀ u ∈ uses, u.sends) ∧ l.stream.written ++ l.pending.toBytes = uses.flatMap Use.bytes ∧
      l.offers.map Stream.Offer.answer = [.accept 2, .interrupted, .accept 0] ∧
      l.flush.1 = some .writeZero ∧ l.flush.2.stream.written = [1, 2] := by
  intro stream c uses l
  have isOpen : c.isOpen := rfl
  have sends : ∀ u ∈ uses, u.sends := by simp [uses, Use.sends]
  obtain ⟨sending, conserved, _, written, _, attempts⟩ := writesConserved c uses
  obtain ⟨still, queued⟩ := sending isOpen sends
  have offers : l.offers = [⟨[1, 2, 3, 1, 0, 0, 0, 33], .accept 2⟩, ⟨[3, 1, 0, 0, 0, 33], .interrupted⟩,
      ⟨[3, 1, 0, 0, 0, 33], .accept 0⟩] := rfl
  rw [offers] at written attempts
  have zero := attempts.failed ⟨[3, 1, 0, 0, 0, 33], .accept 0⟩ (by simp) .writeZero rfl
  refine ⟨isOpen, sends, ?_, by rw [offers]; rfl, zero.1, written⟩
  rw [conserved still, queued]
  rfl

end Connection

end RobotLink
