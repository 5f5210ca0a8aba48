import RobotLink.Dispatcher

/-! Which handlers a frame calls. A dispatcher whose handlers write down their calls answers as it
does without and leaves the same outbox; the calls depend on the frame, the widths and what is registered, and
not on what earlier frames made of the state. -/
namespace RobotLink
variable {State : Type}

structure HandlerCall where
  handler : Nat
  message : Message
  deriving DecidableEq, Repr

def Handler.recorded (handler : Handler State) (number : Nat) : Handler (State × List HandlerCall) := fun m s out =>
  let (out, changed) := handler m s.1 out
  (out, changed, s.2 ++ [⟨number, m⟩])

namespace Dispatcher

/-- The handlers for every opcode are numbered after those for one. -/
def recorded (d : Dispatcher State) (calls : List HandlerCall) : Dispatcher (State × List HandlerCall) where
  widths := d.widths
  handlers := d.handlers.zipIdx.map fun (entry, number) => (entry.1, entry.2.recorded number)
  catchAll := (d.catchAll.zipIdx d.handlers.length).map fun (handler, number) => handler.recorded number
  dispatched := d.dispatched
  state := (d.state, calls)

def numbered (d : Dispatcher State) (op : Opcode) : List (Handler State × Nat) :=
  d.handlers.zipIdx.filterMap (fun (entry, number) => if entry.1 = op then some (entry.2, number) else none) ++
    d.catchAll.zipIdx d.handlers.length

def callsOf (d : Dispatcher State) (f : Frame) : List HandlerCall :=
  match Opcode.ofCode? f.opcode with
  | none => []
  | some op =>
    match Message.decode d.widths op f.payload with
    | (.error _, _) => []
    | (.ok m, _) => (d.numbered op).map fun (_, number) => ⟨number, m⟩

theorem routeForall {P : Handler State → Prop} {d : Dispatcher State} (handlers : ∀ entry ∈ d.handlers, P entry.2)
    (catchAll : ∀ handler ∈ d.catchAll, P handler) (op : Opcode) : ∀ handler ∈ d.route op, P handler := by
  refine List.forall_mem_append.2 ⟨fun handler member => ?_, catchAll⟩
  obtain ⟨entry, place, found⟩ := List.mem_filterMap.1 member
  obtain ⟨_, same⟩ := Option.ite_none_right_eq_some.1 found
  exact Option.some.inj same ▸ handlers entry place

theorem routeNumbered (d : Dispatcher State) (op : Opcode) : d.route op = (d.numbered op).map Prod.fst := by
  have own : d.handlersOf op = (d.handlers.zipIdx.filterMap fun (entry, number) =>
      if entry.1 = op then some (entry.2, number) else none).map Prod.fst := by
    rw [handlersOf, List.map_filterMap, ← List.zipIdx_map_fst 0 d.handlers, List.filterMap_map,
      List.zipIdx_map_fst]
    congr 1
    funext entry
    by_cases same : entry.1.1 = op <;> simp [same]
  rw [route, numbered, List.map_append, own, List.zipIdx_map_fst]

theorem recordedRoute (d : Dispatcher State) (calls : List HandlerCall) (op : Opcode) :
    (d.recorded calls).route op = (d.numbered op).map fun (handler, number) => handler.recorded number := by
  simp only [route, numbered, handlersOf, recorded, List.map_append, List.filterMap_map, List.map_filterMap]
  congr 2
  funext entry
  by_cases same : entry.1.1 = op <;> simp [same]

theorem callRecorded (m : Message) (handlers : List (Handler State × Nat)) (s : State) (calls : List HandlerCall)
    (out : Outbox) :
    call m (handlers.map fun (handler, number) => handler.recorded number) (s, calls) out =
      ((call m (handlers.map Prod.fst) s out).1, (call m (handlers.map Prod.fst) s out).2,
        calls ++ handlers.map fun (_, number) => ⟨number, m⟩) := by
  induction handlers generalizing s calls out with
  | nil => simp [call]
  | cons first rest ih =>
    simp only [List.map_cons, call, Handler.recorded, ih, List.append_assoc, List.singleton_append]

theorem recordedDispatch (d : Dispatcher State) (calls : List HandlerCall) (f : Frame) (out : Outbox) :
    (d.recorded calls).dispatch f out =
      ((d.dispatch f out).1, (d.dispatch f out).2.1, (d.dispatch f out).2.2.recorded (calls ++ d.callsOf f)) := by
  have widths : (d.recorded calls).widths = d.widths := rfl
  have state : (d.recorded calls).state = (d.state, calls) := rfl
  unfold dispatch callsOf
  rw [widths]
  cases Opcode.ofCode? f.opcode with
  | none => simp only [List.append_nil]
  | some op =>
    rcases decoded : Message.decode d.widths op f.payload with ⟨_ | m, rest⟩
    · simp only [decoded, List.append_nil]
    · simp only [decoded, recordedRoute, state, callRecorded, ← routeNumbered]
      rfl

theorem dispatchRegistered (d : Dispatcher State) (f : Frame) (out : Outbox) :
    (d.dispatch f out).2.2.widths = d.widths ∧ (d.dispatch f out).2.2.handlers = d.handlers ∧
      (d.dispatch f out).2.2.catchAll = d.catchAll := by
  unfold dispatch
  split
  next => exact ⟨rfl, rfl, rfl⟩
  next => split <;> exact ⟨rfl, rfl, rfl⟩

def dispatchAll (d : Dispatcher State) (out : Outbox) (frames : List Frame) : Outbox × Dispatcher State :=
  frames.foldl (fun after f => (after.2.dispatch f after.1).2) (out, d)

theorem dispatchAllAppend (d : Dispatcher State) (out : Outbox) (first later : List Frame) :
    d.dispatchAll out (first ++ later) =
      (d.dispatchAll out first).2.dispatchAll (d.dispatchAll out first).1 later := List.foldl_append

end Dispatcher

end RobotLink
