import RobotLink.Proofs.Feeding
import RobotLink.Proofs.FrameOutcomes

/-! Two streams that differ inside the body of one frame, fed in chunks of the same sizes to handlers
of any kind. What has been cut after a chunk is a matter of the stream up to there; up to any point
the streams come to the same pieces but for that frame, and so does everything made of the others. -/
namespace RobotLink

def Piece.ofBody : Bytes → Piece
  | [] => .empty
  | opcode :: payload => .frame ⟨opcode, payload⟩

theorem piecesOfPrefix (limit length : UInt32) (stream : Bytes) :
    pieces limit .needLength (Payload.putCount length.toNat ++ stream) =
      if limit < length then ([], .tooLarge length stream)
      else if stream.length < length.toNat then ([], .waiting (.needPayload length) stream)
      else
        (.ofBody (stream.take length.toNat) :: (pieces limit .needLength (stream.drop length.toNat)).1,
          (pieces limit .needLength (stream.drop length.toNat)).2) := by
  have found : Bytes.split? Frame.prefixLength (Payload.putCount length.toNat ++ stream) =
      some (Payload.putCount length.toNat, stream) := Bytes.splitSome.2 ⟨rfl, Bytes.lengthOfNat 4 _⟩
  have read : (Bytes.toNat (Payload.putCount length.toNat)).toUInt32 = length := by
    rw [Payload.putCount, Bytes.toNatOfNat, Nat.mod_eq_of_lt (show length.toNat < Bytes.span 4 from length.toNat_lt)]
    exact UInt32.ofNat_toNat
  rw [piecesNext]
  simp only [Cut.next, found, read]
  by_cases tooLong : limit < length
  · simp only [if_pos tooLong]
  · simp only [if_neg tooLong]
    by_cases short : stream.length < length.toNat
    · simp only [if_pos short, Cut.body, Bytes.splitNone.2 short]
    · simp only [if_neg short, Cut.body, splitTake (Nat.le_of_not_lt short)]
      cases stream.take length.toNat <;> rfl

structure LeftAlike (body : Nat) (rest other : Bytes) : Prop where
  size : rest.length = other.length
  behind : rest.drop body = other.drop body

inductive Tail.Like (body : Nat) : Tail → Tail → Prop
  | waiting {cursor : Cursor} {rest other : Bytes} (left : LeftAlike body rest other) :
      Like body (.waiting cursor rest) (.waiting cursor other)
  | tooLarge {size : UInt32} {rest other : Bytes} (left : LeftAlike body rest other) :
      Like body (.tooLarge size rest) (.tooLarge size other)

theorem Tail.likeSame (body : Nat) (tail : Tail) : tail.Like body tail := by
  cases tail with
  | waiting cursor rest => exact .waiting ⟨rfl, rfl⟩
  | tooLarge size rest => exact .tooLarge ⟨rfl, rfl⟩

/-- Alike but for piece `k`, of a body of so many bytes; once that has been cut, nothing behind it
tells of it. -/
structure AlikeBut (k body : Nat) (here there : List Piece × Tail) : Prop where
  length : here.1.length = there.1.length
  others : here.1.eraseIdx k = there.1.eraseIdx k
  tail : here.2.Like body there.2
  behind : k < here.1.length → here.2 = there.2

theorem alikeSame (k body : Nat) (cut : List Piece × Tail) : AlikeBut k body cut cut :=
  ⟨rfl, rfl, cut.2.likeSame body, fun _ => rfl⟩

theorem AlikeBut.after {k body : Nat} {here there : List Piece × Tail} (alike : AlikeBut k body here there)
    (earlier : List Piece) :
    AlikeBut (earlier.length + k) body (earlier ++ here.1, here.2) (earlier ++ there.1, there.2) := by
  refine ⟨?_, ?_, alike.tail, fun cut => alike.behind ?_⟩
  · simp only [List.length_append, alike.length]
  · rw [List.eraseIdx_append_of_length_le (Nat.le_add_right _ _), List.eraseIdx_append_of_length_le (Nat.le_add_right _ _),
      Nat.add_sub_cancel_left, alike.others]
  · rw [List.length_append] at cut
    exact Nat.lt_of_add_lt_add_left cut

section
variable {limit length : UInt32} {before one two : Bytes} {earlier : List Piece}

theorem bodyAlike (limit : UInt32) (size : one.length = two.length)
    (same : one.drop length.toNat = two.drop length.toNat) :
    AlikeBut 0 length.toNat (pieces limit .needLength (Payload.putCount length.toNat ++ one))
      (pieces limit .needLength (Payload.putCount length.toNat ++ two)) := by
  rw [piecesOfPrefix, piecesOfPrefix, ← size, ← same]
  by_cases tooLong : limit < length
  · rw [if_pos tooLong, if_pos tooLong]
    exact ⟨rfl, rfl, .tooLarge ⟨size, same⟩, nofun⟩
  · rw [if_neg tooLong, if_neg tooLong]
    by_cases short : one.length < length.toNat
    · rw [if_pos short, if_pos short]
      exact ⟨rfl, rfl, .waiting ⟨size, same⟩, nofun⟩
    · rw [if_neg short, if_neg short]
      exact ⟨rfl, rfl, Tail.likeSame .., fun _ => rfl⟩

theorem piecesAlike (boundary : pieces limit .needLength before = (earlier, .waiting .needLength []))
    (size : one.length = two.length) (same : one.drop length.toNat = two.drop length.toNat) (n : Nat) :
    AlikeBut earlier.length length.toNat (pieces limit .needLength ((before ++ Payload.putCount length.toNat ++ one).take n))
      (pieces limit .needLength ((before ++ Payload.putCount length.toNat ++ two).take n)) := by
  have divided (last : Bytes) : (before ++ Payload.putCount length.toNat ++ last).take n =
      (before ++ Payload.putCount length.toNat).take n ++
        last.take (n - (before ++ Payload.putCount length.toNat).length) := List.take_append
  rw [divided, divided]
  by_cases within : n ≤ (before ++ Payload.putCount length.toNat).length
  · rw [Nat.sub_eq_zero_of_le within, List.take_zero, List.take_zero]
    exact alikeSame ..
  · rw [List.take_of_length_le (Nat.le_of_not_le within)]
    generalize n - (before ++ Payload.putCount length.toNat).length = m
    have body : AlikeBut 0 length.toNat (pieces limit .needLength (Payload.putCount length.toNat ++ one.take m))
        (pieces limit .needLength (Payload.putCount length.toNat ++ two.take m)) := by
      refine bodyAlike limit ?_ ?_
      · rw [List.length_take, List.length_take, size]
      · rw [List.drop_take, List.drop_take, same]
    -- In front of the body stand the same pieces, and nothing of them is left over for it.
    rw [List.append_assoc, List.append_assoc, piecesAppend, piecesAppend limit _ before, boundary]
    exact body.after earlier

theorem wholeAlike {k body : Nat} {here there : Bytes} (size : here.length = there.length)
    (alike : ∀ n, AlikeBut k body (pieces limit .needLength (here.take n)) (pieces limit .needLength (there.take n))) :
    AlikeBut k body (pieces limit .needLength here) (pieces limit .needLength there) := by
  have last := alike here.length
  rwa [List.take_length, size, List.take_length] at last

theorem pastFrame (boundary : pieces limit .needLength before = (earlier, .waiting .needLength []))
    (within : length ≤ limit) (whole : length.toNat ≤ one.length) :
    earlier.length < (pieces limit .needLength (before ++ Payload.putCount length.toNat ++ one)).1.length := by
  rw [List.append_assoc, piecesAppend, boundary]
  simp only [Tail.resume, List.nil_append]
  rw [piecesOfPrefix, if_neg (UInt32.not_lt.2 within), if_neg (Nat.not_lt.2 whole), List.length_append, List.length_cons]
  exact Nat.lt_add_of_pos_right (Nat.succ_pos _)

end

def Tail.answer {α : Type} (limit : UInt32) (answer : α) : Tail → Except FrameError α
  | .waiting _ _ => .ok answer
  | .tooLarge size _ => .error (.tooLarge size limit)

theorem Tail.answerMap {α β : Type} (limit : UInt32) (f : α → β) (answer : α) (tail : Tail) :
    (tail.answer limit answer).map f = tail.answer limit (f answer) := by
  cases tail <;> rfl

def progress (limit : UInt32) (stream : Bytes) : Nat → List Nat → List (Except FrameError Nat × Nat)
  | _, [] => []
  | read, size :: sizes =>
    let (cut, tail) := pieces limit .needLength (stream.take (read + size))
    let new := cut.length - (pieces limit .needLength (stream.take read)).1.length
    (tail.answer limit new, new) :: progress limit stream (read + size) sizes

theorem progressAlike {limit : UInt32} {k body : Nat} {here there : Bytes}
    (alike : ∀ n, AlikeBut k body (pieces limit .needLength (here.take n)) (pieces limit .needLength (there.take n)))
    (sizes : List Nat) (read : Nat) : progress limit here read sizes = progress limit there read sizes := by
  induction sizes generalizing read with
  | nil => rfl
  | cons size sizes ih =>
    have now := alike (read + size)
    rw [progress, progress, ih, (alike read).length]
    generalize pieces limit .needLength (here.take (read + size)) = a at now ⊢
    generalize pieces limit .needLength (there.take (read + size)) = b at now ⊢
    obtain ⟨cut, tail⟩ := a
    obtain ⟨cut', tail'⟩ := b
    obtain ⟨length, _, like, _⟩ := now
    simp only at length like ⊢
    rw [length]
    cases like <;> rfl

namespace Reassembler
variable {State Other : Type}

structure Fed where
  answer : Except FrameError Report
  met : Outbox
  left : Outbox
  calls : List HandlerCall
  outcomes : List Outcome

namespace Fed

def verdict (x : Fed) : Except FrameError Nat := x.answer.map Report.frames

structure AddsUp (x : Fed) : Prop where
  calls : x.calls = x.outcomes.flatMap Outcome.calls
  report : ∀ report, x.answer = .ok report → report = Outcome.report x.outcomes

def Queues (x : Fed) : Prop := x.left = x.met ++ Outcome.outbox x.outcomes

end Fed

def due (r : Reassembler) (chunk : Bytes) : List Piece :=
  match r.failed with
  | some _ => []
  | none => (pieces r.limit r.cursor (r.buffer.toBytes ++ chunk)).1

def feedEach : List Bytes → Reassembler → Dispatcher State → Outbox → List Fed × Reassembler
  | [], r, _, _ => ([], r)
  | chunk :: chunks, r, d, out =>
    let (answer, after, left, next) := r.feed chunk d out
    let calls := (r.feed chunk (d.recorded []) out).2.2.2.state.2
    let (later, last) := feedEach chunks after next left
    (⟨answer, out, left, calls, d.outcomes (r.due chunk) out⟩ :: later, last)

def Reached (r : Reassembler) (limit : UInt32) : Tail → Prop
  | .waiting cursor rest => r.limit = limit ∧ r.Idle ∧ r.cursor = cursor ∧ r.buffer.toBytes = rest
  | .tooLarge size rest => r.failed = some (.tooLarge size limit) ∧ r.cursor = .needLength ∧ r.buffer.toBytes = rest

section
variable {r : Reassembler} {limit : UInt32} {chunk : Bytes} {tail next : Tail} {new : List Piece}

theorem feedReaches (reached : r.Reached limit tail) (h : tail.resume limit chunk = (new, next))
    (d : Dispatcher State) (out : Outbox) :
    r.due chunk = new ∧ ∃ after, after.Reached limit next ∧
      r.feed chunk d out = (next.answer limit (d.deliver new out).1, after, (d.deliver new out).2) := by
  cases tail with
  | tooLarge size rest =>
    obtain ⟨failed, cursor, bytes⟩ := reached
    cases h
    refine ⟨by rw [due, failed], { r.extend chunk with drained := 0 }, ⟨failed, cursor, ?_⟩, ?_⟩
    · rw [← bytes]
      exact ByteQueue.toBytesPush r.buffer chunk
    · exact processLatched (r := r.extend chunk) failed d out
  | waiting cursor rest =>
    obtain ⟨rfl, idle, rfl, rfl⟩ := reached
    have here : pieces r.limit r.cursor (r.buffer.toBytes ++ chunk) = (new, next) := h
    refine ⟨by rw [due, idle.alive, here], ?_⟩
    cases next with
    | waiting cursor rest =>
      obtain ⟨after, fed, idle, stands⟩ := feedPasses idle here d out
      obtain ⟨limit, cursor, bytes⟩ := pastFields stands
      exact ⟨after, ⟨limit, idle, cursor, bytes⟩, fed⟩
    | tooLarge size rest =>
      obtain ⟨after, fed, failed, cursor, bytes⟩ := feedBreaks idle here d out
      exact ⟨after, ⟨failed, cursor, bytes⟩, fed⟩

theorem feedAddsUp (reached : r.Reached limit tail) (chunk : Bytes) (d : Dispatcher State) (out : Outbox) :
    Fed.AddsUp ⟨(r.feed chunk d out).1, out, (r.feed chunk d out).2.2.1,
      (r.feed chunk (d.recorded []) out).2.2.2.state.2, d.outcomes (r.due chunk) out⟩ := by
  rcases h : tail.resume limit chunk with ⟨new, next⟩
  obtain ⟨due, _, _, fed⟩ := feedReaches reached h d out
  obtain ⟨_, _, _, recorded⟩ := feedReaches reached h (d.recorded []) out
  rw [fed, recorded, due]
  refine ⟨?_, fun answered same => ?_⟩
  · rw [Dispatcher.deliverRecorded]
    rfl
  · cases next with
    | waiting cursor rest =>
      cases same
      exact d.deliverReport new out
    | tooLarge size rest => cases same

structure RunOf (limit : UInt32) (read : Bytes) (chunks : List Bytes) (d : Dispatcher State) (out : Outbox)
    (run : List Fed × Reassembler) : Prop where
  reached : run.2.Reached limit (pieces limit .needLength (read ++ chunks.flatten)).2
  addsUp : ∀ x ∈ run.1, x.AddsUp
  progress : run.1.map (fun x => (x.verdict, x.outcomes.length)) =
    progress limit (read ++ chunks.flatten) read.length (chunks.map List.length)
  outcomes : ∃ new, (pieces limit .needLength (read ++ chunks.flatten)).1 = (pieces limit .needLength read).1 ++ new ∧
    run.1.flatMap Fed.outcomes = d.outcomes new out

theorem feedEachRuns (chunks : List Bytes) {read : Bytes} (reached : r.Reached limit (pieces limit .needLength read).2)
    (d : Dispatcher State) (out : Outbox) : RunOf limit read chunks d out (r.feedEach chunks d out) := by
  -- What was read before grows with each chunk, so that every answer is one about the whole stream.
  induction chunks generalizing r read d out with
  | nil =>
    rw [← List.append_nil read] at reached
    exact ⟨reached, nofun, rfl, [], by simp, rfl⟩
  | cons chunk chunks ih =>
    have divided := piecesAppend limit .needLength read chunk
    rcases h : (pieces limit .needLength read).2.resume limit chunk with ⟨new, next⟩
    obtain ⟨due, after, there, fed⟩ := feedReaches reached h d out
    rw [h] at divided
    obtain ⟨last, addsUp, progressed, more, cut, outcomes⟩ :=
      ih (by rw [divided]; exact there) (d.deliver new out).2.2 (d.deliver new out).2.1
    have here := feedAddsUp reached chunk d out
    rw [fed, due] at here
    have same : read ++ (chunk :: chunks).flatten = read ++ chunk ++ chunks.flatten := (List.append_assoc ..).symm
    have first : (read ++ chunk ++ chunks.flatten).take read.length = read := by
      rw [List.append_assoc, List.take_left]
    have both : (read ++ chunk ++ chunks.flatten).take (read.length + chunk.length) = read ++ chunk := by
      rw [← List.length_append, List.take_left]
    simp only [feedEach, fed, due]
    refine ⟨same ▸ last, List.forall_mem_cons.2 ⟨here, addsUp⟩, ?_, new ++ more, ?_, ?_⟩
    · simp only [List.map_cons, progressed]
      rw [same, RobotLink.progress, first, both, divided]
      simp only [Fed.verdict, Tail.answerMap, Dispatcher.deliverFrames, Dispatcher.outcomesLength, List.length_append,
        Nat.add_sub_cancel_left]
    · rw [same, cut, divided, List.append_assoc]
    · rw [List.flatMap_cons, outcomes, Dispatcher.outcomesAppend]

theorem feedEachQueues (chunks : List Bytes) (reached : r.Reached limit tail) {d : Dispatcher State}
    {e : Dispatcher Other} (alike : d.Alike e) (out : Outbox) : ∀ x ∈ (r.feedEach chunks d out).1, x.Queues := by
  induction chunks generalizing r tail d out with
  | nil => nofun
  | cons chunk chunks ih =>
    rcases h : tail.resume limit chunk with ⟨new, next⟩
    obtain ⟨due, after, there, fed⟩ := feedReaches reached h d out
    obtain ⟨queued, later⟩ := alike.delivers new out
    simp only [feedEach, fed, due]
    exact List.forall_mem_cons.2 ⟨queued, ih there later _⟩

structure Isolates (k body : Nat) (a b : List Fed × Reassembler) : Prop where
  addUp : ∀ x ∈ a.1 ++ b.1, x.AddsUp
  verdicts : a.1.map Fed.verdict = b.1.map Fed.verdict
  counts : a.1.map (·.outcomes.length) = b.1.map (·.outcomes.length)
  discards : ((a.1.flatMap Fed.outcomes).map Outcome.discard).eraseIdx k =
    ((b.1.flatMap Fed.outcomes).map Outcome.discard).eraseIdx k
  cursor : a.2.cursor = b.2.cursor
  failed : a.2.failed = b.2.failed
  left : LeftAlike body a.2.buffer.toBytes b.2.buffer.toBytes

end

section
variable {limit length : UInt32} {before one two : Bytes} {earlier : List Piece} {chunks others : List Bytes}
  {r u : Reassembler} {d : Dispatcher State} {e : Dispatcher Other} {out other : Outbox}

theorem reachedLike {body : Nat} {here there : Tail} (first : r.Reached limit here) (second : u.Reached limit there)
    (like : here.Like body there) :
    r.cursor = u.cursor ∧ r.failed = u.failed ∧ LeftAlike body r.buffer.toBytes u.buffer.toBytes := by
  cases like with
  | waiting left =>
    obtain ⟨_, idle, rfl, rfl⟩ := first
    obtain ⟨_, idle', same, rfl⟩ := second
    exact ⟨same.symm, idle.alive.trans idle'.alive.symm, left⟩
  | tooLarge left =>
    obtain ⟨failed, cursor, rfl⟩ := first
    obtain ⟨failed', cursor', rfl⟩ := second
    exact ⟨cursor.trans cursor'.symm, failed.trans failed'.symm, left⟩

theorem reachedBytes {tail : Tail} (first : r.Reached limit tail) (second : u.Reached limit tail) :
    r.buffer.toBytes = u.buffer.toBytes := by
  cases tail with
  | waiting cursor rest => exact first.2.2.2.trans second.2.2.2.symm
  | tooLarge size rest => exact first.2.2.trans second.2.2.symm

theorem freshReached (limit : UInt32) : (fresh limit).Reached limit (pieces limit .needLength []).2 := by
  rw [piecesOfNothing]
  exact ⟨rfl, idleFresh limit, rfl, rfl⟩

theorem RunOf.allOutcomes {run : List Fed × Reassembler} (h : RunOf limit [] chunks d out run) :
    run.1.flatMap Fed.outcomes = d.outcomes (pieces limit .needLength chunks.flatten).1 out := by
  obtain ⟨new, cut, outcomes⟩ := h.outcomes
  simp only [piecesOfNothing, List.nil_append] at cut
  rw [outcomes, cut]

theorem runsIsolate {k body : Nat} {a b : List Fed × Reassembler} (first : RunOf limit [] chunks d out a)
    (second : RunOf limit [] others e other b) (chunking : chunks.map List.length = others.map List.length)
    (alike : ∀ n, AlikeBut k body (pieces limit .needLength (chunks.flatten.take n))
      (pieces limit .needLength (others.flatten.take n)))
    (whole : AlikeBut k body (pieces limit .needLength chunks.flatten) (pieces limit .needLength others.flatten))
    (widths : d.widths = e.widths) : Isolates k body a b := by
  have steps : a.1.map (fun x => (x.verdict, x.outcomes.length)) = b.1.map fun x => (x.verdict, x.outcomes.length) := by
    rw [first.progress, second.progress, chunking]
    exact progressAlike alike _ _
  obtain ⟨cursor, failed, left⟩ := reachedLike first.reached second.reached whole.tail
  refine ⟨List.forall_mem_append.2 ⟨first.addsUp, second.addsUp⟩, ?_, ?_, ?_, cursor, failed, left⟩
  · have verdicts := congrArg (List.map Prod.fst) steps
    simpa only [List.map_map, Function.comp_def] using verdicts
  · have counts := congrArg (List.map Prod.snd) steps
    simpa only [List.map_map, Function.comp_def] using counts
  · rw [first.allOutcomes, second.allOutcomes]
    exact (Dispatcher.discardsAgree widths).elsewhere whole.length whole.others out other

/-- What stands in the body of a frame, and what handlers make of any frame, is no matter to the
frames around it: not to where they are cut, nor to what becomes of them. Only of a body that is cut
nothing is left. -/
theorem framesIsolated (boundary : pieces limit .needLength before = (earlier, .waiting .needLength []))
    (size : one.length = two.length) (same : one.drop length.toNat = two.drop length.toNat)
    (here : chunks.flatten = before ++ Payload.putCount length.toNat ++ one)
    (there : others.flatten = before ++ Payload.putCount length.toNat ++ two)
    (chunking : chunks.map List.length = others.map List.length) (widths : d.widths = e.widths)
    (out other : Outbox) :
    let a := (fresh limit).feedEach chunks d out
    let b := (fresh limit).feedEach others e other
    Isolates earlier.length length.toNat a b ∧
      (length ≤ limit → length.toNat ≤ one.length → a.2.buffer.toBytes = b.2.buffer.toBytes) ∧
      (d.Alike e →
        (a.1.flatMap Fed.outcomes).eraseIdx earlier.length = (b.1.flatMap Fed.outcomes).eraseIdx earlier.length ∧
          ∀ x ∈ a.1 ++ b.1, x.Queues) := by
  intro a b
  have first : RunOf limit [] chunks d out a := feedEachRuns chunks (freshReached limit) d out
  have second : RunOf limit [] others e other b := feedEachRuns others (freshReached limit) e other
  have alike := piecesAlike boundary size same
  rw [← here, ← there] at alike
  have whole := wholeAlike (by rw [List.length_flatten, chunking, List.length_flatten]) alike
  refine ⟨runsIsolate first second chunking alike whole widths, fun within complete => ?_, fun handlers => ?_⟩
  · have past := pastFrame boundary within complete
    rw [← here] at past
    have reached := first.reached
    rw [List.nil_append, whole.behind past] at reached
    exact reachedBytes reached second.reached
  · have outcomes := handlers.agree.elsewhere whole.length whole.others out other
    rw [List.map_id, List.map_id] at outcomes
    refine ⟨by rw [first.allOutcomes, second.allOutcomes, outcomes], List.forall_mem_append.2 ⟨?_, ?_⟩⟩
    · exact feedEachQueues chunks (freshReached limit) handlers out
    · exact feedEachQueues others (freshReached limit) handlers.symm other

theorem unknownOpcodeIsolated :
    let d := (Dispatcher.fresh .standard ()).register .battery fun m s out => (out.send m, s)
    let e := (Dispatcher.fresh .standard 0).register .battery fun m s out => (out.send m, s + 1)
    let chunks : List Bytes := [[0, 0, 0, 0, 3, 0], [0, 0, 5], [230, 2, 3, 0, 0], [0, 5, 230, 2, 7]]
    let others : List Bytes := [[0, 0, 0, 0, 3, 0], [0, 0, 99], [1, 1, 3, 0, 0], [0, 5, 230, 2, 7]]
    let a := (fresh 64).feedEach chunks d ⟨[[7]], []⟩
    let b := (fresh 64).feedEach others e .empty
    Isolates 1 3 a b ∧ a.2.buffer.toBytes = b.2.buffer.toBytes ∧
      (a.1.flatMap Fed.outcomes).eraseIdx 1 = (b.1.flatMap Fed.outcomes).eraseIdx 1 ∧ (∀ x ∈ a.1 ++ b.1, x.Queues) ∧
      pieces 64 .needLength chunks.flatten =
        ([.empty, .frame ⟨5, [230, 2]⟩, .frame ⟨5, [230, 2]⟩], .waiting .needLength [7]) ∧
      pieces 64 .needLength others.flatten =
        ([.empty, .frame ⟨99, [1, 1]⟩, .frame ⟨5, [230, 2]⟩], .waiting .needLength [7]) := by
  intro d e chunks others a b
  have boundary : pieces 64 .needLength [0, 0, 0, 0] = ([.empty], .waiting .needLength []) := by cbv
  have echo {State : Type} (step : State → State) :
      Handler.Queues (fun m s out => (out.send m, step s)) fun m => ⟨[m.encode], []⟩ := by
    intro m s out
    exact congrArg (Outbox.mk _) (List.append_nil _).symm
  have handlers : d.Alike e := ⟨rfl, .cons ⟨rfl, _, echo id, echo (· + 1)⟩ .nil, .nil⟩
  obtain ⟨isolates, bytes, outcomes⟩ := framesIsolated (d := d) (e := e) boundary
    (show [5, 230, 2, 3, 0, 0, 0, 5, 230, 2, 7].length = [99, 1, 1, 3, 0, 0, 0, 5, 230, 2, 7].length from rfl)
    (show List.drop (3 : UInt32).toNat _ = _ from rfl) (show chunks.flatten = _ from rfl) (show others.flatten = _ from rfl)
    rfl rfl ⟨[[7]], []⟩ .empty
  obtain ⟨others, queues⟩ := outcomes handlers
  exact ⟨isolates, bytes (by decide) (by decide), others, queues, by cbv, by cbv⟩

/-- A body that is still incomplete is left as it came, and so is one above the limit; and where
handlers take replies back, one frame can undo what another has queued. -/
theorem framesNotIsolated :
    let d := (Dispatcher.fresh .standard ()).register .battery fun m s out => (out.send m, s)
    let e := d.register .getScripts fun _ s out => (out.takeReplies.2, s)
    let left (bytes : Bytes) := ((fresh 64).feedEach [bytes] d .empty).2
    let queued (bytes : Bytes) := ((fresh 64).feed bytes e .empty).2.2.1
    (left [5, 0, 0, 0, 1, 2]).cursor = .needPayload 5 ∧ (left [5, 0, 0, 0, 9, 9]).cursor = .needPayload 5 ∧
      (left [5, 0, 0, 0, 1, 2]).buffer.toBytes = [1, 2] ∧ (left [5, 0, 0, 0, 9, 9]).buffer.toBytes = [9, 9] ∧
      (left [65, 0, 0, 0, 1, 2]).buffer.toBytes = [1, 2] ∧ (left [65, 0, 0, 0, 9, 9]).buffer.toBytes = [9, 9] ∧
      queued [3, 0, 0, 0, 5, 230, 2, 1, 0, 0, 0, 255] = ⟨[(Message.word .battery 742).encode], []⟩ ∧
      queued ([3, 0, 0, 0, 5, 230, 2, 1, 0, 0, 0] ++ [Opcode.getScripts.code]) = .empty := by
  refine ⟨?_, ?_, ?_, ?_, ?_, ?_, ?_, ?_⟩
  all_goals decide +kernel

end

end Reassembler

end RobotLink
