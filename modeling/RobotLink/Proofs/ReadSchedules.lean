import RobotLink.Proofs.FrameOutcomes
import RobotLink.Proofs.MessageDelivery
import RobotLink.Proofs.ReadRounds

/-! Polls until nothing is left to read. Where reads and polls divide a stream makes no difference
to which handlers its frames call, to whether and why the connection is lost, and to where its cursor
ends. Nor does it to what handlers do and queue in an outbox that the polls share, or in any outboxes as
long as no handler looks into them. -/
namespace RobotLink

namespace Stream

inductive Ending where
  | none
  | closed
  | failed (message : String)
  deriving DecidableEq, Repr

def Ending.reads : Ending → List ReadResult
  | none => []
  | closed => [.endOfStream]
  | failed message => [.failed message]

def Ending.loss : Ending → Option String
  | none => .none
  | closed => some "closed by peer"
  | failed message => some message

end Stream

def ConnectionEvent.report : ConnectionEvent → Report
  | .data report => report
  | .idle | .lost _ => .none

/-- It does the same and queues the same, whatever is queued already. -/
def Handler.Heedless {State : Type} (handler : Handler State) : Prop :=
  ∀ m s out, handler m s out = (out ++ (handler m s .empty).1, (handler m s .empty).2)

namespace Dispatcher
variable {State : Type} {d e : Dispatcher State}

structure Heedless (d : Dispatcher State) : Prop where
  handlers : ∀ entry ∈ d.handlers, Handler.Heedless entry.2
  catchAll : ∀ handler ∈ d.catchAll, Handler.Heedless handler

theorem callHeedless {handlers : List (Handler State)} (heedless : ∀ handler ∈ handlers, handler.Heedless)
    (m : Message) (s : State) (out : Outbox) :
    call m handlers s out = (out ++ (call m handlers s .empty).1, (call m handlers s .empty).2) := by
  induction handlers generalizing s out with
  | nil => exact congrArg (·, s) out.appendEmpty.symm
  | cons handler rest ih =>
    obtain ⟨first, others⟩ := List.forall_mem_cons.1 heedless
    simp only [call]
    rw [first m s out, ih others, ih others _ (handler m s .empty).1, Outbox.appendAssoc]

theorem Heedless.dispatched (h : d.Heedless) (f : Frame) (out : Outbox) :
    d.dispatch f out = ((d.dispatch f .empty).1, out ++ (d.dispatch f .empty).2.1, (d.dispatch f .empty).2.2) ∧
      (d.dispatch f out).2.2.Heedless := by
  obtain ⟨_, handlers, catchAll⟩ := d.dispatchRegistered f out
  refine ⟨?_, by rw [handlers]; exact h.handlers, by rw [catchAll]; exact h.catchAll⟩
  unfold dispatch
  cases Opcode.ofCode? f.opcode with
  | none => exact congrArg (fun queued => (_, queued, d)) out.appendEmpty.symm
  | some op =>
    rcases decoded : Message.decode d.widths op f.payload with ⟨_ | m, rest⟩
    · simp only [decoded, out.appendEmpty]
    · simp only [decoded]
      rw [callHeedless (routeForall h.handlers h.catchAll op) m d.state out]

theorem Heedless.delivered (h : d.Heedless) (cut : List Piece) (out : Outbox) :
    (d.deliver cut out).2 = (out ++ (d.deliver cut .empty).2.1, (d.deliver cut .empty).2.2) ∧
      (d.deliver cut out).2.2.Heedless := by
  induction cut generalizing d out with
  | nil => exact ⟨congrArg (·, d) out.appendEmpty.symm, h⟩
  | cons piece rest ih =>
    cases piece with
    | empty => exact ih h out
    | frame f =>
      obtain ⟨same, later⟩ := h.dispatched f out
      simp only [deliver]
      rw [same] at later ⊢
      simp only at later ⊢
      obtain ⟨here, last⟩ := ih later (out ++ (d.dispatch f .empty).2.1)
      obtain ⟨alone, _⟩ := ih later (d.dispatch f .empty).2.1
      refine ⟨?_, last⟩
      rw [here, alone, Outbox.appendAssoc]

theorem deliverReportSame (widths : d.widths = e.widths) (cut : List Piece) (out other : Outbox) :
    (d.deliver cut out).1 = (e.deliver cut other).1 := by
  induction cut generalizing d e out other with
  | nil => rfl
  | cons piece rest ih =>
    cases piece with
    | empty => exact congrArg (Report.ofEmpty 1 ++ ·) (ih widths out other)
    | frame f =>
      have after : (d.dispatch f out).2.2.widths = (e.dispatch f other).2.2.widths := by
        rw [(d.dispatchRegistered f out).1, (e.dispatchRegistered f other).1, widths]
      simp only [deliver, dispatchResult widths f out other, ih after (d.dispatch f out).2.1 (e.dispatch f other).2.1]

inductive Passes : List Piece → Dispatcher State → Dispatcher State → Prop
  | none {d : Dispatcher State} : Passes [] d d
  | next {piece : Piece} {rest : List Piece} {d e : Dispatcher State} (out : Outbox) (later : Passes rest (d.after out piece).2 e) : Passes (piece :: rest) d e

theorem deliverPasses (cut : List Piece) (d : Dispatcher State) (out : Outbox) : Passes cut d (d.deliver cut out).2.2 := by
  induction cut generalizing d out with
  | nil => exact .none
  | cons piece rest ih =>
    rw [deliverCons]
    exact .next out (ih ..)

theorem Passes.trans {first later : List Piece} {f : Dispatcher State} (h : Passes first d e) (next : Passes later e f) :
    Passes (first ++ later) d f := by
  induction h with
  | none => exact next
  | next out _ ih => exact .next out (ih next)

theorem afterRecorded (d : Dispatcher State) (calls : List HandlerCall) (out : Outbox) (piece : Piece) :
    ((d.recorded calls).after out piece).2 = (d.after out piece).2.recorded (calls ++ (d.outcome piece).calls) := by
  cases piece with
  | empty => exact congrArg d.recorded (List.append_nil calls).symm
  | frame f => exact congrArg (·.2.2) (d.recordedDispatch calls f out)

theorem outcomeCalls (d : Dispatcher State) (s : State) (n : Nat) (piece : Piece) :
    ({ d with state := s, dispatched := n }.outcome piece).calls = (d.outcome piece).calls := by
  cases piece <;> rfl

theorem Passes.calls {cut : List Piece} {calls : List HandlerCall} {last : Dispatcher (State × List HandlerCall)}
    (h : Passes cut (d.recorded calls) last) : last.state.2 = calls ++ cut.flatMap fun piece => (d.outcome piece).calls := by
  generalize same : d.recorded calls = first at h
  induction h generalizing d calls with
  | none => rw [← same, List.flatMap_nil, List.append_nil]; rfl
  | @next piece rest _ _ out _ ih =>
    subst same
    obtain ⟨s, n, registered⟩ := d.afterRegistered out piece
    rw [ih (d.afterRecorded calls out piece).symm, registered, List.flatMap_cons, List.append_assoc]
    simp only [outcomeCalls]

end Dispatcher

namespace Connection
variable {State : Type}

theorem blockedLess {reads later : List ReadResult} (answer : Stream.read reads = (.wouldBlock, later)) :
    Stream.readable later ≤ Stream.readable reads - 1 := by
  unfold Stream.read at answer
  split at answer
  · cases answer
    exact Nat.zero_le _
  · cases answer
  · cases answer
  · cases answer
    simp [Stream.readable, Stream.weight]

theorem receiveLess (reads : List ReadResult) (r : Reassembler) (d : Dispatcher State) (out : Outbox) :
    Stream.readable (receive reads r d out).reads ≤ Stream.readable reads - 1 := by
  fun_induction receive reads r d out with
  | case1 reads r d out later answer => exact blockedLess answer
  | case2 reads r d out later answer | case3 reads r d out later _ answer =>
    exact Nat.le_sub_one_of_lt (Stream.readableRead answer (by simp))
  | case4 reads r d out later _ less ih => omega
  | case5 reads r d out bytes later _ less =>
    rename_i ih
    exact Nat.le_trans ih (Nat.le_trans (Nat.sub_le _ _) (Nat.le_sub_one_of_lt less))
  | case6 reads r d out bytes later _ less => exact Nat.le_sub_one_of_lt less

theorem pollLess {c : Connection} (more : c.isOpen ∧ c.stream.reads ≠ []) (d : Dispatcher State) (out : Outbox) :
    Stream.readable (c.poll d out).2.1.stream.reads < Stream.readable c.stream.reads := by
  have some : 0 < Stream.readable c.stream.reads := by
    obtain ⟨first, rest, reads⟩ := List.exists_cons_of_ne_nil more.2
    rw [reads]
    cases first <;> simp only [Stream.readable, Stream.weight] <;> omega
  have step := c.pollStep d out
  generalize c.poll d out = polled at step ⊢
  cases step with
  | gone gone =>
    rw [isOpen, gone] at more
    cases more.1
  | @lost r reason cursor =>
    have same : ((c.afterRead (receive c.stream.reads r d out)).close reason).stream.reads =
        (receive c.stream.reads r d out).reads := rfl
    have less := receiveLess c.stream.reads r d out
    rw [same]
    omega
  | @stays r cursor =>
    have less := receiveLess c.stream.reads r d out
    change Stream.readable (receive c.stream.reads r d out).reads < _
    omega

structure Polls (State : Type) where
  events : List ConnectionEvent
  connection : Connection
  queued : Outbox
  dispatcher : Dispatcher State

/-- Polls until the connection is lost or nothing is left to read. After some polls what is queued
is taken, after the others the outbox is left to the next. -/
def pollAll (takes : Nat → Bool) (c : Connection) (d : Dispatcher State) (out : Outbox) : Polls State :=
  if more : c.isOpen ∧ c.stream.reads ≠ [] then
    have := pollLess more d out
    let first := c.poll d out
    let left := first.2.2.1
    let later := pollAll (takes ∘ Nat.succ) first.2.1 first.2.2.2 (if takes 0 then .empty else left)
    { later with
      events := first.1 :: later.events
      queued := if takes 0 then left ++ later.queued else later.queued }
  else ⟨[], c, out, d⟩
termination_by Stream.readable c.stream.reads

def Seamless (takes : Nat → Bool) (d : Dispatcher State) : Prop := (∀ n, takes n = false) ∨ d.Heedless

structure Polls.Meets (x : Polls State) (takes : Nat → Bool) (c : Connection) (r : Reassembler) (d : Dispatcher State)
    (out : Outbox) (cut : List Piece) (tail : Tail) (ending : Stream.Ending) : Prop where
  passes : Dispatcher.Passes cut d x.dispatcher
  handled : Seamless takes d → (x.queued, x.dispatcher) = (d.deliver cut out).2
  lost : ∀ reason, tail.loss r.limit ending.loss = some reason →
    x.connection.cursor = none ∧ x.connection.lost = some reason
  stays : tail.loss r.limit ending.loss = none → ∃ after last rest, x.connection.cursor = some after ∧
    after.joined = r.past cut (d.deliver cut out).1 last rest ∧ tail = .waiting last rest ∧
    x.connection.lost = c.lost ∧ x.connection.stream.reads = [] ∧
    Report.total (x.events.map ConnectionEvent.report) = (d.deliver cut out).1

section
variable {c : Connection} {r : Reassembler} {d : Dispatcher State} {out : Outbox} {cut : List Piece} {tail : Tail}
  {ending : Stream.Ending} {takes : Nat → Bool}

theorem eventReport (cut : List Piece) (d : Dispatcher State) (out : Outbox) :
    ConnectionEvent.report
      (if (d.deliver cut out).1.frames = 0 then .idle else .data (d.deliver cut out).1) = (d.deliver cut out).1 := by
  by_cases none : (d.deliver cut out).1.frames = 0
  · rw [if_pos none]
    rw [Dispatcher.deliverFrames] at none
    rw [List.length_eq_zero_iff.1 none]
    rfl
  · rw [if_neg none]
    rfl

theorem seamlessHandled {queued : Outbox} {e : Dispatcher State} (first cut : List Piece) (seamless : Seamless takes d)
    (next : Seamless (takes ∘ Nat.succ) (d.deliver first out).2.2 → (queued, e) =
      ((d.deliver first out).2.2.deliver cut (if takes 0 then .empty else (d.deliver first out).2.1)).2) :
    (if takes 0 then (d.deliver first out).2.1 ++ queued else queued, e) = (d.deliver (first ++ cut) out).2 := by
  rw [Dispatcher.deliverAppend]
  rcases seamless with never | heedless
  · rw [never] at next ⊢
    exact next (.inl fun n => never (n + 1))
  · obtain ⟨_, still⟩ := heedless.delivered first out
    obtain ⟨same, _⟩ := still.delivered cut (d.deliver first out).2.1
    have handled := next (.inr still)
    cases taken : takes 0 with
    | false =>
      rw [taken] at handled
      exact handled
    | true =>
      simp only [taken, if_true] at handled
      rw [same, ← handled]
      rfl

theorem Polls.Meets.behind {after : Reassembler} {x : Polls State} {first : List Piece} {cursor : Cursor} {rest : Bytes}
    {stream : Stream} (stands : after.joined = r.past first (d.deliver first out).1 cursor rest)
    (next : x.Meets (takes ∘ Nat.succ) { c with stream, cursor := some after } after (d.deliver first out).2.2
      (if takes 0 then .empty else (d.deliver first out).2.1) cut tail ending) :
    Polls.Meets { x with
        events := (if (d.deliver first out).1.frames = 0 then .idle else .data (d.deliver first out).1) :: x.events
        queued := if takes 0 then (d.deliver first out).2.1 ++ x.queued else x.queued }
      takes c r d out (first ++ cut) tail ending := by
  obtain ⟨sameLimit, _, _⟩ := Reassembler.pastFields stands
  refine ⟨(Dispatcher.deliverPasses first d out).trans next.passes,
    fun seamless => seamlessHandled first cut seamless next.handled, ?_, fun none => ?_⟩
  · rw [← sameLimit]
    exact next.lost
  · rw [← sameLimit] at none
    obtain ⟨final, last, unread, isOpen, stood, same, lost, reads, reports⟩ := next.stays none
    rw [Dispatcher.deliverReportSame rfl cut _ (d.deliver first out).2.1] at stood reports
    rw [Dispatcher.deliverAppend]
    refine ⟨final, last, unread, isOpen, Reassembler.pastTwice stands stood, same, lost, reads, ?_⟩
    rw [List.map_cons, eventReport, ← reports]
    rfl

end

structure Polls.Alike (a b : Polls State) : Prop where
  isOpen : a.connection.isOpen = b.connection.isOpen
  lost : a.connection.lost = b.connection.lost
  cursor : a.connection.cursor.map Reassembler.joined = b.connection.cursor.map Reassembler.joined
  exhausted : a.connection.isOpen → a.connection.stream.reads = [] ∧ b.connection.stream.reads = []
  reports : a.connection.isOpen →
    Report.total (a.events.map ConnectionEvent.report) = Report.total (b.events.map ConnectionEvent.report)

section
variable {bytes : Bytes} {ending : Stream.Ending} {one two : Stream}

theorem Polls.Meets.alike {a b : Polls State} {takes others : Nat → Bool} {stream : Stream} {peer other : String}
    {r : Reassembler} {d : Dispatcher State} {out : Outbox} {cut : List Piece} {tail : Tail}
    (here : a.Meets takes (fresh one peer r.limit) r d out cut tail ending)
    (there : b.Meets others (fresh stream other r.limit) r d out cut tail ending) : a.Alike b := by
  cases loss : tail.loss r.limit ending.loss with
  | some reason =>
    obtain ⟨closed, lost⟩ := here.lost reason loss
    obtain ⟨closed', lost'⟩ := there.lost reason loss
    have shut : a.connection.isOpen = false := by rw [isOpen, closed]; rfl
    have shut' : b.connection.isOpen = false := by rw [isOpen, closed']; rfl
    refine ⟨shut.trans shut'.symm, lost.trans lost'.symm, by rw [closed, closed'], ?_, ?_⟩
    all_goals
      intro isOpen
      rw [shut] at isOpen
      cases isOpen
  | none =>
    obtain ⟨after, last, rest, cursor, stands, same, lost, reads, reports⟩ := here.stays loss
    obtain ⟨after', last', rest', cursor', stands', same', lost', reads', reports'⟩ := there.stays loss
    rw [same] at same'
    cases same'
    refine ⟨?_, lost.trans lost'.symm, ?_, fun _ => ⟨reads, reads'⟩, fun _ => reports.trans reports'.symm⟩
    · simp only [isOpen, cursor, cursor', Option.isSome_some]
    · simp only [cursor, cursor', Option.map_some, stands, stands']

/-- A handler that answers only into an empty outbox can tell where one poll ends. -/
theorem takenOutboxTells :
    let sparing : Handler Unit := fun m s out => (if out.isEmpty then out.send m else out, s)
    let d := (Dispatcher.fresh .standard ()).registerCatchAll sparing
    let reply := (Message.word .battery 742).encode
    let whole : Stream := ⟨[.data (reply ++ reply)], [], [], []⟩
    let divided : Stream := ⟨[.data reply, .wouldBlock, .data reply], [], [], []⟩
    let queued (stream : Stream) (taken : Bool) := ((fresh stream "peer" 64).pollAll (fun _ => taken) d .empty).queued
    queued whole true = ⟨[reply], []⟩ ∧ queued divided true = ⟨[reply, reply], []⟩ ∧
      queued whole false = ⟨[reply], []⟩ ∧ queued divided false = ⟨[reply], []⟩ := by
  refine ⟨?_, ?_, ?_, ?_⟩
  all_goals decide +kernel

end

end Connection

end RobotLink
