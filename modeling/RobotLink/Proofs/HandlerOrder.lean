import Mathlib.Data.List.Induction
import RobotLink.Proofs.FrameVerdicts

/-! The order of calls over a whole run of a dispatcher. Handlers are registered and frames dispatched in
any order; a dispatch calls the handlers registered before it, those for its opcode and then those for every
opcode, each with the outbox that the one before it left, and a frame that does not decode leaves all as it was. -/
namespace RobotLink

inductive Frame.Opened (widths : WidthTable) (f : Frame) : Except DispatchError (Message × Nat) → Prop
  | decoded {op : Opcode} {m : Message} {rest : Bytes} {n : Nat} (code : op.code = f.opcode)
      (read : Message.decode widths op f.payload = (.ok m, rest)) (consumed : n + rest.length = f.payload.length) :
      Frame.Opened widths f (.ok (m, n))
  | unknown (unknown : f.Unknown) : Frame.Opened widths f (.error (.unknownOpcode f.opcode))
  | unmeasured {op : Opcode} (code : op.code = f.opcode) (simple : op.isSimple) (none : widths.get? op = none) :
      Frame.Opened widths f (.error (.missingWidth op))
  | undecoded {op : Opcode} {cause : DecodeError} {rest : Bytes} (code : op.code = f.opcode)
      (read : Message.decode widths op f.payload = (.error (.decode cause), rest)) :
      Frame.Opened widths f (.error (.decode cause))

theorem Frame.opens (widths : WidthTable) (f : Frame) : ∃ opened, f.Opened widths opened := by
  cases found : Opcode.ofCode? f.opcode with
  | none => exact ⟨_, .unknown (unknownIff.1 found)⟩
  | some op =>
    have code := Opcode.codeOfCode found
    rcases read : Message.decode widths op f.payload with ⟨e | m, rest⟩
    · rcases Message.decodeFails read with ⟨simple, none, rfl⟩ | ⟨cause, rfl⟩
      · exact ⟨_, .unmeasured code simple none⟩
      · exact ⟨_, .undecoded code read⟩
    · obtain ⟨_, _, front⟩ := Message.decodeRestores read
      refine ⟨.ok (m, m.payload.length), .decoded code read ?_⟩
      rw [front, List.length_append]

namespace Dispatcher
variable {State : Type} {widths : WidthTable} {f : Frame}

def settled (d : Dispatcher State) (out : Outbox) : Except DispatchError (Message × Nat) →
    Except DispatchError Nat × Outbox × Dispatcher State
  | .error e => (.error e, out, d)
  | .ok (m, n) =>
    let (left, state) := call m (d.route m.opcode) d.state out
    (.ok n, left, { d with dispatched := d.dispatched + 1, state })

theorem dispatchOpened (d : Dispatcher State) (out : Outbox) {opened : Except DispatchError (Message × Nat)}
    (opens : f.Opened d.widths opened) : d.dispatch f out = d.settled out opened := by
  have known {op : Opcode} (code : op.code = f.opcode) : Opcode.ofCode? f.opcode = some op := by
    rw [← code, Opcode.ofCodeCode]
  unfold dispatch
  cases opens with
  | decoded code read consumed =>
    obtain ⟨rfl, _⟩ := Message.decodeRestores read
    have length := Nat.eq_sub_of_add_eq consumed
    simp only [known code, read, settled, length]
  | unknown unknown => simp only [Frame.unknownIff.2 unknown, settled]
  | unmeasured code simple none => simp only [known code, Message.decodeUnmeasured simple none, settled]
  | undecoded code read => simp only [known code, read, settled]

inductive Use (State : Type) where
  | register (opcode : Opcode) (handler : Handler State)
  | registerCatchAll (handler : Handler State)
  | dispatch (frame : Frame)

namespace Use

def own? (op : Opcode) : Use State → Option (Handler State)
  | .register other handler => if other = op then some handler else none
  | _ => none

def catchAll? : Use State → Option (Handler State)
  | .registerCatchAll handler => some handler
  | _ => none

def recorded (number : Nat) : Use State → Use (State × List HandlerCall)
  | .register op handler => .register op (handler.recorded number)
  | .registerCatchAll handler => .registerCatchAll (handler.recorded number)
  | .dispatch f => .dispatch f

end Use

structure Usage (State : Type) where
  dispatcher : Dispatcher State
  outbox : Outbox
  answers : List (Except DispatchError Nat)

def Usage.use (u : Usage State) : Use State → Usage State
  | .register op handler => { u with dispatcher := u.dispatcher.register op handler }
  | .registerCatchAll handler => { u with dispatcher := u.dispatcher.registerCatchAll handler }
  | .dispatch f =>
    let (answer, outbox, dispatcher) := u.dispatcher.dispatch f u.outbox
    ⟨dispatcher, outbox, u.answers ++ [answer]⟩

def Usage.run (widths : WidthTable) (state : State) (queued : Outbox) (uses : List (Use State)) : Usage State :=
  uses.foldl Usage.use ⟨.fresh widths state, queued, []⟩

def numberedOf (kind : Use State → Option (Handler State)) (uses : List (Use State)) : List (Handler State × Nat) :=
  uses.zipIdx.filterMap fun (use, number) => (kind use).map (·, number)

def registered (op : Opcode) (uses : List (Use State)) : List (Handler State × Nat) :=
  numberedOf (Use.own? op) uses ++ numberedOf Use.catchAll? uses

def recordedUses (uses : List (Use State)) : List (Use (State × List HandlerCall)) :=
  uses.zipIdx.map fun (use, number) => use.recorded number

namespace Usage
variable {s : State} {queued : Outbox} {uses : List (Use State)}

theorem handlersRecorded {kind : Use State → Option (Handler State)}
    {kindRecorded : Use (State × List HandlerCall) → Option (Handler (State × List HandlerCall))}
    (same : ∀ use number, kindRecorded (use.recorded number) = (kind use).map (·.recorded number))
    (uses : List (Use State)) :
    (recordedUses uses).filterMap kindRecorded =
      (numberedOf kind uses).map fun (handler, number) => handler.recorded number := by
  rw [recordedUses, numberedOf, List.filterMap_map, List.map_filterMap]
  refine congrArg (List.filterMap · _) (funext fun (use, number) => ?_)
  simp only [Function.comp_def, same, Option.map_map]

theorem ownRecorded (op : Opcode) (use : Use State) (number : Nat) :
    (use.recorded number).own? op = (use.own? op).map (·.recorded number) := by
  cases use with
  | register other handler =>
    simp only [Use.recorded, Use.own?]
    split <;> rfl
  | registerCatchAll | dispatch => rfl

theorem catchAllRecorded (use : Use State) (number : Nat) :
    (use.recorded number).catchAll? = use.catchAll?.map (·.recorded number) := by
  cases use <;> rfl

theorem runNext (widths : WidthTable) (s : State) (queued : Outbox) (uses : List (Use State)) (use : Use State) :
    run widths s queued (uses ++ [use]) = (run widths s queued uses).use use :=
  List.foldl_concat ..

structure Knows (widths : WidthTable) (uses : List (Use State)) (d : Dispatcher State) : Prop where
  widths : d.widths = widths
  own : ∀ op, d.handlersOf op = uses.filterMap (Use.own? op)
  catchAll : d.catchAll = uses.filterMap Use.catchAll?

theorem Knows.used {u : Usage State} (knows : Knows widths uses u.dispatcher) (use : Use State) :
    Knows widths (uses ++ [use]) (u.use use).dispatcher := by
  cases use with
  | register op handler =>
    refine ⟨knows.widths, fun other => ?_, ?_⟩
    · rw [List.filterMap_append, ← knows.own]
      exact List.filterMap_append
    · rw [List.filterMap_append, ← knows.catchAll]
      exact (List.append_nil _).symm
  | registerCatchAll handler =>
    refine ⟨knows.widths, fun op => ?_, ?_⟩
    · rw [List.filterMap_append, ← knows.own]
      exact (List.append_nil _).symm
    · rw [List.filterMap_append, ← knows.catchAll]
      rfl
  | dispatch f =>
    obtain ⟨same, handlers, catchAll⟩ := u.dispatcher.dispatchRegistered f u.outbox
    refine ⟨same.trans knows.widths, fun op => ?_, ?_⟩
    · rw [List.filterMap_append, ← knows.own]
      change Dispatcher.handlersOf (u.dispatcher.dispatch f u.outbox).2.2 op = _
      rw [handlersOf, handlers]
      exact (List.append_nil _).symm
    · rw [List.filterMap_append, ← knows.catchAll]
      exact catchAll.trans (List.append_nil _).symm

theorem runKnows (widths : WidthTable) (s : State) (queued : Outbox) (uses : List (Use State)) :
    Knows widths uses (run widths s queued uses).dispatcher := by
  induction uses using List.reverseRecOn with
  | nil => exact ⟨rfl, fun _ => rfl, rfl⟩
  | append_singleton uses use ih =>
    rw [runNext]
    exact ih.used use

theorem recordedRoute (widths : WidthTable) (s : State × List HandlerCall) (queued : Outbox) (uses : List (Use State))
    (op : Opcode) :
    (run widths s queued (recordedUses uses)).dispatcher.route op =
      (registered op uses).map fun (handler, number) => handler.recorded number := by
  have knows := runKnows widths s queued (recordedUses uses)
  rw [route, knows.own, knows.catchAll, handlersRecorded (ownRecorded op), handlersRecorded catchAllRecorded,
    registered, List.map_append]

section
variable (widths : WidthTable) (s : State) (calls : List HandlerCall) (queued : Outbox) (uses : List (Use State))

end

end Usage

/-- A handler that empties the outbox takes what was queued before it. -/
theorem queuedTakenBack :
    let echo : Handler Unit := fun m s out => (out.send m, s)
    let uses : List (Use Unit) :=
      [.register .battery echo, .registerCatchAll fun _ s out => (out.takeReplies.2.takeBroadcasts.2, s),
        .dispatch (Message.word .battery 742).frame]
    (Usage.run .standard () ⟨[[7]], [[8]]⟩ uses).outbox = .empty := by
  rfl

end Dispatcher
end RobotLink
