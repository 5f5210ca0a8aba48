import Mathlib.Data.List.Forall2
import RobotLink.Proofs.FrameLoop
import RobotLink.Proofs.HandlerCalls

/-! What each frame comes to: whether it is discarded, which handlers it calls and what they queue.
A delivery is the sum of these. Two dispatchers that agree on a part of every outcome, whatever
their states, go on agreeing on it after whatever either of them has dispatched, and whatever their
outboxes hold. -/
namespace RobotLink

structure Outcome where
  discard : Option Discard
  calls : List HandlerCall
  queued : Outbox
  deriving DecidableEq, Repr

namespace Outcome

def report (os : List Outcome) : Report := ⟨os.length, os.filterMap discard⟩

def outbox (os : List Outcome) : Outbox := os.foldr (fun o later => o.queued ++ later) .empty

theorem reportCons (o : Outcome) (os : List Outcome) : report (o :: os) = ⟨1, o.discard.toList⟩ ++ report os := by
  rw [report, List.length_cons, Nat.add_comm]
  cases lost : o.discard with
  | none => rw [List.filterMap_cons_none lost]; rfl
  | some discard => rw [List.filterMap_cons_some lost]; rfl

end Outcome

def Handler.Queues {State : Type} (handler : Handler State) (queued : Message → Outbox) : Prop :=
  ∀ m s out, (handler m s out).1 = out ++ queued m

def Handler.Alike {State Other : Type} (first : Handler State) (second : Handler Other) : Prop :=
  ∃ queued, first.Queues queued ∧ second.Queues queued

namespace Dispatcher
variable {State Other : Type} {α : Type}

def outcome (d : Dispatcher State) : Piece → Outcome
  | .empty => ⟨some .ofEmpty, [], .empty⟩
  | .frame f => ⟨f.discard? (d.dispatch f .empty).1, d.callsOf f, (d.dispatch f .empty).2.1⟩

def after (d : Dispatcher State) (out : Outbox) : Piece → Outbox × Dispatcher State
  | .empty => (out, d)
  | .frame f => (d.dispatch f out).2

def outcomes : List Piece → Dispatcher State → Outbox → List Outcome
  | [], _, _ => []
  | piece :: rest, d, out => d.outcome piece :: outcomes rest (d.after out piece).2 (d.after out piece).1

theorem dispatchResult {d : Dispatcher State} {e : Dispatcher Other} (widths : d.widths = e.widths) (f : Frame)
    (out other : Outbox) : (d.dispatch f out).1 = (e.dispatch f other).1 := by
  unfold dispatch
  rw [widths]
  split
  next => rfl
  next => split <;> rfl

theorem deliverCons (piece : Piece) (rest : List Piece) (d : Dispatcher State) (out : Outbox) :
    d.deliver (piece :: rest) out =
      (⟨1, (d.outcome piece).discard.toList⟩ ++ ((d.after out piece).2.deliver rest (d.after out piece).1).1,
        ((d.after out piece).2.deliver rest (d.after out piece).1).2) := by
  cases piece with
  | empty => rfl
  | frame f =>
    simp only [deliver, outcome, dispatchResult (rfl : d.widths = d.widths) f .empty out]
    rfl

theorem deliverReport (cut : List Piece) (d : Dispatcher State) (out : Outbox) :
    (d.deliver cut out).1 = Outcome.report (d.outcomes cut out) := by
  induction cut generalizing d out with
  | nil => rfl
  | cons piece rest ih => rw [deliverCons, outcomes, Outcome.reportCons, ih]

theorem deliverRecorded (cut : List Piece) (d : Dispatcher State) (calls : List HandlerCall) (out : Outbox) :
    (d.recorded calls).deliver cut out =
      ((d.deliver cut out).1, (d.deliver cut out).2.1,
        (d.deliver cut out).2.2.recorded (calls ++ (d.outcomes cut out).flatMap Outcome.calls)) := by
  induction cut generalizing d calls out with
  | nil => simp only [deliver, outcomes, List.flatMap_nil, List.append_nil]
  | cons piece rest ih =>
    cases piece with
    | empty => simp only [deliver, ih, outcomes, outcome, after, List.flatMap_cons, List.nil_append]
    | frame f =>
      simp only [deliver, recordedDispatch, ih, outcomes, outcome, after, List.flatMap_cons, List.append_assoc]

theorem outcomesAppend (first later : List Piece) (d : Dispatcher State) (out : Outbox) :
    d.outcomes (first ++ later) out =
      d.outcomes first out ++ (d.deliver first out).2.2.outcomes later (d.deliver first out).2.1 := by
  induction first generalizing d out with
  | nil => rfl
  | cons piece rest ih => rw [deliverCons, List.cons_append, outcomes, ih]; rfl

theorem outcomesLength (cut : List Piece) (d : Dispatcher State) (out : Outbox) :
    (d.outcomes cut out).length = cut.length := by
  induction cut generalizing d out with
  | nil => rfl
  | cons piece rest ih => rw [outcomes, List.length_cons, ih, List.length_cons]

def AgreeOn (view : Outcome → α) (d : Dispatcher State) (e : Dispatcher Other) : Prop :=
  ∀ s t n m piece, view ({ d with state := s, dispatched := n }.outcome piece) =
    view ({ e with state := t, dispatched := m }.outcome piece)

theorem afterRegistered (d : Dispatcher State) (out : Outbox) (piece : Piece) :
    ∃ s n, (d.after out piece).2 = { d with state := s, dispatched := n } := by
  cases piece with
  | empty => exact ⟨d.state, d.dispatched, rfl⟩
  | frame f =>
    obtain ⟨widths, handlers, catchAll⟩ := d.dispatchRegistered f out
    refine ⟨(d.dispatch f out).2.2.state, (d.dispatch f out).2.2.dispatched, ?_⟩
    rw [after, ← widths, ← handlers, ← catchAll]

section
variable {view : Outcome → α} {d : Dispatcher State} {e : Dispatcher Other}

theorem AgreeOn.after (agree : AgreeOn view d e) (out other : Outbox) (here there : Piece) :
    AgreeOn view (d.after out here).2 (e.after other there).2 := by
  obtain ⟨s, n, same⟩ := d.afterRegistered out here
  obtain ⟨t, m, same'⟩ := e.afterRegistered other there
  rw [same, same']
  exact agree

theorem AgreeOn.outcomes (agree : AgreeOn view d e) (cut : List Piece) (out other : Outbox) :
    (d.outcomes cut out).map view = (e.outcomes cut other).map view := by
  induction cut generalizing d e out other with
  | nil => rfl
  | cons piece rest ih =>
    simp only [Dispatcher.outcomes, List.map_cons, ih (agree.after out other piece piece) _ (e.after other piece).1]
    rw [show view (d.outcome piece) = view (e.outcome piece) from agree ..]

theorem AgreeOn.elsewhere (agree : AgreeOn view d e) {here there : List Piece} {k : Nat}
    (length : here.length = there.length) (same : here.eraseIdx k = there.eraseIdx k) (out other : Outbox) :
    ((d.outcomes here out).map view).eraseIdx k = ((e.outcomes there other).map view).eraseIdx k := by
  induction here generalizing there k d e out other with
  | nil =>
    rw [List.length_eq_zero_iff.1 length.symm]
    rfl
  | cons piece rest ih =>
    obtain ⟨different, others, rfl⟩ := List.exists_cons_of_length_eq_add_one length.symm
    cases k with
    | zero =>
      simp only [List.eraseIdx_cons_zero] at same
      rw [same]
      exact (agree.after out other piece different).outcomes others _ _
    | succ k =>
      simp only [List.eraseIdx_cons_succ, List.cons.injEq] at same
      obtain ⟨rfl, same⟩ := same
      have later := ih (agree.after out other piece piece) (Nat.succ.inj length) same
        (d.after out piece).1 (e.after other piece).1
      simp only [Dispatcher.outcomes, List.map_cons, List.eraseIdx_cons_succ, later]
      rw [show view (d.outcome piece) = view (e.outcome piece) from agree ..]

theorem discardsAgree (widths : d.widths = e.widths) : AgreeOn Outcome.discard d e := by
  intro s t n m piece
  cases piece with
  | empty => rfl
  | frame f =>
    exact congrArg f.discard? (dispatchResult
      (d := { d with state := s, dispatched := n }) (e := { e with state := t, dispatched := m }) widths f .empty .empty)

end

structure Alike (d : Dispatcher State) (e : Dispatcher Other) : Prop where
  widths : d.widths = e.widths
  handlers : List.Forall₂ (fun a b => a.1 = b.1 ∧ a.2.Alike b.2) d.handlers e.handlers
  catchAll : List.Forall₂ Handler.Alike d.catchAll e.catchAll

theorem callAlike {first : List (Handler State × Nat)} {second : List (Handler Other × Nat)}
    (alike : List.Forall₂ (fun a b => a.1.Alike b.1 ∧ a.2 = b.2) first second) (m : Message) :
    ∃ queued : Outbox, (∀ s out, (call m (first.map Prod.fst) s out).1 = out ++ queued) ∧
      ∀ s out, (call m (second.map Prod.fst) s out).1 = out ++ queued := by
  induction alike with
  | nil => exact ⟨.empty, fun _ out => out.appendEmpty.symm, fun _ out => out.appendEmpty.symm⟩
  | cons head _ ih =>
    obtain ⟨⟨queued, here, there⟩, _⟩ := head
    obtain ⟨later, ahead, ahead'⟩ := ih
    refine ⟨queued m ++ later, fun s out => ?_, fun s out => ?_⟩
    · rw [List.map_cons, call, ahead, here, Outbox.appendAssoc]
    · rw [List.map_cons, call, ahead', there, Outbox.appendAssoc]

theorem zipIdxAlike {β γ : Type} {R : β → γ → Prop} {first : List β} {second : List γ}
    (alike : List.Forall₂ R first second) (n : Nat) :
    List.Forall₂ (fun a b => R a.1 b.1 ∧ a.2 = b.2) (first.zipIdx n) (second.zipIdx n) := by
  induction alike generalizing n with
  | nil => exact .nil
  | cons head _ ih => exact .cons ⟨head, rfl⟩ (ih (n + 1))

section
variable {d : Dispatcher State} {e : Dispatcher Other}

theorem Alike.numbered (alike : d.Alike e) (op : Opcode) :
    List.Forall₂ (fun a b => a.1.Alike b.1 ∧ a.2 = b.2) (d.numbered op) (e.numbered op) := by
  rw [Dispatcher.numbered, Dispatcher.numbered, alike.handlers.length_eq]
  refine List.rel_append (List.rel_filterMap ?_ (zipIdxAlike alike.handlers 0)) (zipIdxAlike alike.catchAll _)
  rintro ⟨⟨own, _⟩, n⟩ ⟨⟨_, _⟩, _⟩ ⟨⟨rfl, alike⟩, rfl⟩
  by_cases same : own = op
  · simp only [if_pos same]
    exact .some ⟨alike, rfl⟩
  · simp only [if_neg same]
    exact .none

theorem Alike.callsOf (alike : d.Alike e) (f : Frame) : d.callsOf f = e.callsOf f := by
  unfold Dispatcher.callsOf
  rw [alike.widths]
  cases Opcode.ofCode? f.opcode with
  | none => rfl
  | some op =>
    rcases decoded : Message.decode e.widths op f.payload with ⟨_ | m, rest⟩
    · simp only [decoded]
    · simp only [decoded]
      have pairs := alike.numbered op
      generalize d.numbered op = first, e.numbered op = second at pairs ⊢
      induction pairs with
      | nil => rfl
      | cons head _ ih => rw [List.map_cons, List.map_cons, head.2, ih]

theorem Alike.dispatches (alike : d.Alike e) (f : Frame) :
    ∃ queued : Outbox, (∀ out, (d.dispatch f out).2.1 = out ++ queued) ∧ ∀ out, (e.dispatch f out).2.1 = out ++ queued := by
  unfold dispatch
  rw [alike.widths]
  have nothing (out : Outbox) : out = out ++ .empty := out.appendEmpty.symm
  cases Opcode.ofCode? f.opcode with
  | none => exact ⟨.empty, nothing, nothing⟩
  | some op =>
    rcases decoded : Message.decode e.widths op f.payload with ⟨_ | m, rest⟩
    · simp only [decoded]
      exact ⟨.empty, nothing, nothing⟩
    · simp only [decoded, routeNumbered]
      obtain ⟨queued, here, there⟩ := callAlike (alike.numbered op) m
      exact ⟨queued, here d.state, there e.state⟩

theorem Alike.queued (alike : d.Alike e) (f : Frame) : (d.dispatch f .empty).2.1 = (e.dispatch f .empty).2.1 := by
  obtain ⟨queued, here, there⟩ := alike.dispatches f
  rw [here, there]

theorem Alike.agree (alike : d.Alike e) : AgreeOn id d e := by
  intro s t n m piece
  cases piece with
  | empty => rfl
  | frame f =>
    have same : Alike { d with state := s, dispatched := n } { e with state := t, dispatched := m } :=
      ⟨alike.widths, alike.handlers, alike.catchAll⟩
    simp only [id_eq, outcome, dispatchResult same.widths f .empty .empty, same.callsOf, same.queued]

theorem Alike.after (alike : d.Alike e) (out : Outbox) (piece : Piece) :
    (d.after out piece).1 = out ++ (d.outcome piece).queued ∧ Alike (d.after out piece).2 e := by
  obtain ⟨s, n, registered⟩ := d.afterRegistered out piece
  refine ⟨?_, registered ▸ ⟨alike.widths, alike.handlers, alike.catchAll⟩⟩
  cases piece with
  | empty => exact out.appendEmpty.symm
  | frame f =>
    obtain ⟨queued, dispatches, _⟩ := alike.dispatches f
    rw [Dispatcher.after, outcome, dispatches, dispatches]
    rfl

theorem Alike.delivers (alike : d.Alike e) (cut : List Piece) (out : Outbox) :
    (d.deliver cut out).2.1 = out ++ Outcome.outbox (d.outcomes cut out) ∧ Alike (d.deliver cut out).2.2 e := by
  induction cut generalizing d out with
  | nil => exact ⟨out.appendEmpty.symm, alike⟩
  | cons piece rest ih =>
    obtain ⟨first, later⟩ := alike.after out piece
    obtain ⟨queued, last⟩ := ih later (d.after out piece).1
    rw [deliverCons, outcomes]
    refine ⟨?_, last⟩
    rw [queued, first, Outbox.appendAssoc]
    rfl

theorem Alike.symm (alike : d.Alike e) : e.Alike d := by
  refine ⟨alike.widths.symm, ?_, ?_⟩
  · exact alike.handlers.flip.imp fun _ _ ⟨opcode, queued, here, there⟩ => ⟨opcode.symm, queued, there, here⟩
  · exact alike.catchAll.flip.imp fun _ _ ⟨queued, here, there⟩ => ⟨queued, there, here⟩

end

end Dispatcher

end RobotLink
