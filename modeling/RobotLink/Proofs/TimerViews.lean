import RobotLink.Proofs.ClockRuns

/-! Views of timers that hide what no clock goes by. Where a match and a setting show alike, whether the
timer is given to them or only what is seen of it, so does every operation on a clock of such timers, and
by induction a run of them. -/
namespace RobotLink

structure Timer.Faithful (view : Timer → Timer) : Prop where
  twice : ∀ t, view (view t) = view t
  takesPart : ∀ t, (view t).schedulable = t.schedulable
  next : ∀ t, t.schedulable → (view t).nextMatch = t.nextMatch
  matched : ∀ t, t.schedulable → (view t).countMatch.rearm.map view = t.countMatch.rearm.map view
  disabled : ∀ t, view ((view t).setEnabled false) = view (t.setEnabled false)
  set : ∀ {op : Clock.Operation} {id change}, op.setting? = some (id, change) →
    ∀ now t, (change now (view t)).map view = (change now t).map view

namespace Clock
variable {World : Type} {callback : Callback World} {view : Timer → Timer} {id : TimerId}

def seenOf (view : Timer → Timer) (timers : List (TimerId × Timer)) : List (TimerId × Timer) :=
  timers.map fun (id, t) => (id, view t)

theorem seenCons (id : TimerId) (t : Timer) (timers : List (TimerId × Timer)) :
    seenOf view ((id, t) :: timers) = (id, view t) :: seenOf view timers := rfl

theorem seenTwice (faithful : Timer.Faithful view) (timers : List (TimerId × Timer)) :
    seenOf view (seenOf view timers) = seenOf view timers := by
  simp only [seenOf, List.map_map, Function.comp_def, faithful.twice]

theorem seenSet (timers : List (TimerId × Timer)) (i : Nat) (t : Timer) :
    seenOf view (timers.set i (id, t)) = (seenOf view timers).set i (id, view t) :=
  List.map_set

theorem seenErase (timers : List (TimerId × Timer)) :
    (seenOf view timers).eraseP (·.1 = id) = seenOf view (timers.eraseP (·.1 = id)) := by
  rw [seenOf, List.eraseP_map]
  rfl

theorem seenLookup (timers : List (TimerId × Timer)) :
    (seenOf view timers).lookup id = (timers.lookup id).map view := by
  induction timers with
  | nil => rfl
  | cons head rest ih =>
    obtain ⟨other, t⟩ := head
    rw [seenCons, List.lookup_cons, List.lookup_cons, ih]
    split <;> rfl

theorem seenUpdate {operation : Timer → Except Fault Timer}
    (same : ∀ t, (operation (view t)).map view = (operation t).map view) (faithful : Timer.Faithful view)
    (timers : List (TimerId × Timer)) :
    (updateTimer id operation (seenOf view timers)).map (seenOf view) =
      (updateTimer id operation timers).map (seenOf view) := by
  induction timers with
  | nil => rfl
  | cons head rest ih =>
    obtain ⟨other, t⟩ := head
    rw [seenCons]
    simp only [updateTimer]
    split
    · have own := same t
      cases changed : operation t with
      | error f =>
        rw [changed] at own
        simp only [mapError own, Except.map]
      | ok u =>
        rw [changed] at own
        obtain ⟨v, done, alike⟩ := mapOk own
        simp only [done, Except.map, seenCons, seenTwice faithful, alike]
    · cases changed : updateTimer id operation rest with
      | error e =>
        rw [changed] at ih
        simp only [mapError ih, Except.map]
      | ok later =>
        rw [changed] at ih
        obtain ⟨others, done, alike⟩ := mapOk ih
        simp only [done, Except.map, seenCons, faithful.twice, alike]

theorem seenEarliest (faithful : Timer.Faithful view) (timers : List (TimerId × Timer)) :
    earliest? (seenOf view timers) = (earliest? timers).map fun (i, id, t) => (i, id, view t) := by
  induction timers with
  | nil => rfl
  | cons head rest ih =>
    obtain ⟨id, t⟩ := head
    rw [seenCons]
    simp only [earliest?, ih, faithful.takesPart]
    cases found : earliest? rest with
    | none =>
      simp only [Option.map_none]
      split <;> rfl
    | some entry =>
      obtain ⟨i, other, u⟩ := entry
      simp only [Option.map_some]
      by_cases on : t.schedulable
      · simp only [faithful.next t on, faithful.next u (earliestAt found).2]
        split <;> rfl
      · simp only [on, Bool.false_eq_true, false_and, if_false]
        rfl

section
variable {target : Ticks} {cap : Option Nat}

def Sweep.seen (view : Timer → Timer) (s : Sweep World) : Sweep World := { s with timers := seenOf view s.timers }

def Sweep.Next.seen (view : Timer → Timer) : Sweep.Next World → Sweep.Next World
  | .finished => .finished
  | .capped => .capped
  | .fired s => .fired (s.seen view)

theorem nextSeen (faithful : Timer.Faithful view) (s : Sweep World) :
    ((s.seen view).next callback target cap).map (Sweep.Next.seen view) =
      (s.next callback target cap).map (Sweep.Next.seen view) := by
  unfold Sweep.next
  have timers : (s.seen view).timers = seenOf view s.timers := rfl
  have full : (s.seen view).fired = s.fired := rfl
  have before : (s.seen view).world = s.world := rfl
  rw [timers, full, before, seenEarliest faithful]
  cases found : earliest? s.timers with
  | none => rfl
  | some entry =>
    obtain ⟨i, id, t⟩ := entry
    have on := (earliestAt found).2
    simp only [Option.map_some, faithful.next t on]
    split
    · rfl
    split
    · rfl
    cases callback id t.nextMatch s.world with
    | error f => rfl
    | ok world =>
      have own := faithful.matched t on
      cases rearmed : t.countMatch.rearm with
      | error f =>
        rw [rearmed] at own
        simp only [mapError own, Except.map]
      | ok u =>
        rw [rearmed] at own
        obtain ⟨v, done, alike⟩ := mapOk own
        simp only [done, Except.map, Sweep.Next.seen, Sweep.seen, seenSet, seenTwice faithful, alike]
        rfl

theorem runSeen (faithful : Timer.Faithful view) {s u : Sweep World} (alike : u.seen view = s.seen view) :
    (u.run callback target cap).map (fun (s, capped) => (s.seen view, capped)) =
      (s.run callback target cap).map fun (s, capped) => (s.seen view, capped) := by
  have agree : ∀ {s u : Sweep World}, u.seen view = s.seen view →
      (u.next callback target cap).map (Sweep.Next.seen view) =
        (s.next callback target cap).map (Sweep.Next.seen view) := by
    intro s u alike
    rw [← nextSeen faithful u, alike, nextSeen faithful s]
  -- The induction is on two sweeps that are seen alike, since what is hidden may differ after a match too.
  fun_induction Sweep.run callback target cap s generalizing u with
  | case1 s f next =>
    have same := agree alike
    rw [next] at same
    rw [Sweep.runNext, mapError same]
  | case2 s next | case3 s next =>
    have same := agree alike
    rw [next] at same
    obtain ⟨m, went, same⟩ := mapOk same
    cases m <;> cases same
    rw [Sweep.runNext, went]
    simp only [Except.map, alike]
  | case4 s n next ih =>
    have same := agree alike
    rw [next] at same
    obtain ⟨m, went, same⟩ := mapOk same
    cases m with
    | finished | capped => cases same
    | fired m =>
      rw [Sweep.runNext, went]
      exact ih (Sweep.Next.fired.inj same)

end

def seen (view : Timer → Timer) (c : Clock) : Clock := { c with timers := seenOf view c.timers }

def seenEnd (view : Timer → Timer) : Outcome × Clock × World → Outcome × Clock × World :=
  fun (outcome, c, world) => (outcome, c.seen view, world)

def Operation.unsaved : Operation → Bool
  | .save | .load _ => false
  | _ => true

section
variable {c : Clock} {world : World}

theorem seenSeen (faithful : Timer.Faithful view) (c : Clock) : (c.seen view).seen view = c.seen view := by
  simp only [seen, seenTwice faithful]

theorem advanceSeen (faithful : Timer.Faithful view) (callback : Callback World) (c : Clock) (world : World)
    (delta : UInt64) :
    ((c.seen view).advance callback world delta).map (fun (a, d, world) => (a, d.seen view, world)) =
      (c.advance callback world delta).map fun (a, d, world) => (a, d.seen view, world) := by
  unfold advance
  simp only [mapBind]
  refine bind_congr fun sum => bind_congr fun target => bindAgree (runSeen faithful ?_) ?_
  · simp only [Sweep.seen, seen, seenTwice faithful]
  rintro ⟨s, capped⟩ ⟨u, _⟩ alike
  obtain ⟨same, rfl⟩ := Prod.mk.inj alike
  obtain ⟨sameCurrent, sameTimers, sameFired, sameWorld⟩ := Sweep.mk.inj same
  cases capped with
  | true =>
    simp only [if_true, mapBind, sameCurrent, sameFired, sameWorld]
    refine bind_congr fun owed => ?_
    simp only [Except.map, pure, Except.pure, seen, sameTimers]
  | false =>
    simp only [Bool.false_eq_true, if_false, Except.map, pure, Except.pure, seen, sameTimers, sameFired, sameWorld]

theorem stepSeen (faithful : Timer.Faithful view) (callback : Callback World) (c : Clock) (world : World) (now : Nat) :
    ((c.seen view).step callback world now).map (fun (s, d, world) => (s, d.seen view, world)) =
      (c.step callback world now).map fun (s, d, world) => (s, d.seen view, world) := by
  have running : (c.seen view).state = c.state := rfl
  have reference : (c.seen view).lastStep = c.lastStep := rfl
  unfold step
  rw [running, reference]
  split
  · simp only [Except.map, pure, Except.pure, seenSeen faithful]
  cases c.lastStep with
  | none =>
    simp only [Except.map, pure, Except.pure, seen, seenTwice faithful]
  | some last =>
    simp only [mapBind]
    refine bind_congr fun product => bind_congr fun scaled => bindAgree (advanceSeen faithful callback
      { c with lastStep := some now, tickFraction := scaled % nanosPerSecond } world _) ?_
    rintro ⟨a, d, world⟩ ⟨_, e, _⟩ alike
    obtain ⟨rfl, ends⟩ := Prod.mk.inj alike
    obtain ⟨same, rfl⟩ := Prod.mk.inj ends
    have stats : d.stats = e.stats :=
      show (d.seen view).stats = (e.seen view).stats from congrArg Clock.stats same
    rw [stats]
    refine bind_congr fun (speed, stats) => ?_
    have left : ({ d with stats } : Clock).seen view = ({ e with stats } : Clock).seen view :=
      congrArg (fun c : Clock => { c with stats }) same
    simp only [Except.map, pure, Except.pure, left]

theorem settleSeen (faithful : Timer.Faithful view) {result other : Except ClockError Clock}
    (same : other.map (seen view) = result.map (seen view)) :
    ((c.seen view).settle world other).map (seenEnd view) = (c.settle world result).map (seenEnd view) := by
  cases result with
  | ok d =>
    obtain ⟨e, done, alike⟩ := mapOk same
    simp only [done, settle, Except.map, seenEnd, alike]
  | error e =>
    rw [mapError same]
    cases e <;> simp only [settle, Except.map, seenEnd, seenSeen faithful]

theorem onTimerSeen (faithful : Timer.Faithful view) {operation : Timer → Except Fault Timer}
    (same : ∀ t, (operation (view t)).map view = (operation t).map view) :
    ((c.seen view).onTimer id operation).map (seen view) = (c.onTimer id operation).map (seen view) := by
  unfold onTimer
  rw [mapBind, mapBind]
  refine bindAgree (seenUpdate same faithful c.timers) fun a b alike => ?_
  simp only [Except.map, pure, Except.pure, seen, alike]

theorem removeSeen : (c.seen view).removeTimer id = (c.removeTimer id).map (seen view) := by
  have known : ((c.seen view).timer? id).isSome = (c.timer? id).isSome := by
    change ((seenOf view c.timers).lookup id).isSome = _
    rw [seenLookup, Option.isSome_map]
    rfl
  unfold removeTimer
  rw [known]
  split
  · simp only [Except.map, seen, seenErase]
  · rfl

theorem createSeen (faithful : Timer.Faithful view) :
    (c.seen view).createTimer.map (fun (id, d) => (id, d.seen view)) =
      c.createTimer.map fun (id, d) => (id, d.seen view) := by
  have next : (c.seen view).nextId = c.nextId := rfl
  unfold createTimer
  rw [next]
  split
  · simp only [Except.map, seen, seenOf, List.map_append, List.map_map, Function.comp_def, faithful.twice]
  · rfl

theorem performSeen (faithful : Timer.Faithful view) (callback : Callback World) (c : Clock) (world : World)
    {op : Operation} (unsaved : op.unsaved) :
    ((c.seen view).perform callback world op).map (seenEnd view) =
      (c.perform callback world op).map (seenEnd view) := by
  cases sets : op.setting? with
  | some set =>
    obtain ⟨id, change⟩ := set
    rw [performSets sets, performSets sets]
    exact settleSeen faithful (onTimerSeen faithful (faithful.set sets c.current))
  | none =>
    cases op with
    | enable | setCompare | setPrescaler => cases sets
    | save | load => cases unsaved
    | create =>
      have same := congrArg (Except.map fun (id, d) => (Outcome.created id, d, world)) (createSeen faithful (c := c))
      rw [mapThen, mapThen] at same
      simp only [perform, mapThen]
      exact same
    | remove id =>
      simp only [perform, removeSeen]
      refine settleSeen faithful ?_
      rw [mapThen]
      exact congrArg (Except.map · _) (funext (seenSeen faithful))
    | setCpuUsage | setTargetSpeed | stop =>
      simp only [perform, Except.map, seenEnd, setCpuUsage, setTargetSpeed, stop, seen, seenTwice faithful]
    | start =>
      have state : (c.seen view).state = c.state := rfl
      simp only [perform, Except.map, seenEnd, start, state]
      split <;> simp only [seen, seenTwice faithful]
    | reset =>
      simp only [perform, Except.map, seenEnd, reset, seen, seenOf, List.map_map, Function.comp_def, faithful.disabled]
    | advance delta =>
      have same := congrArg (Except.map fun (a, d, world) => (Outcome.advanced a, d, world))
        (advanceSeen faithful callback c world delta)
      rw [mapThen, mapThen] at same
      simp only [perform, mapThen]
      exact same
    | step now =>
      have same := congrArg (Except.map fun (s, d, world) => (Outcome.stepped s, d, world))
        (stepSeen faithful callback c world now)
      rw [mapThen, mapThen] at same
      simp only [perform, mapThen]
      exact same

theorem runHiding {Shown : Type} {hide : Clock → Shown} {callback : Callback World} {ops : List Operation}
    (performs : ∀ op ∈ ops, ∀ {c d : Clock} (world : World), hide c = hide d →
      (c.perform callback world op).map (fun (outcome, e, world) => (outcome, hide e, world)) =
        (d.perform callback world op).map fun (outcome, e, world) => (outcome, hide e, world))
    {c d : Clock} (alike : hide c = hide d) (world : World) :
    (c.run callback world ops).1 = (d.run callback world ops).1 ∧
      (c.run callback world ops).2.map (fun (e, world) => (hide e, world)) =
        (d.run callback world ops).2.map fun (e, world) => (hide e, world) := by
  induction ops generalizing c d world with
  | nil => simp only [run, Except.map, alike, and_self]
  | cons op rest ih =>
    obtain ⟨first, others⟩ := List.forall_mem_cons.1 performs
    have same := first world alike
    cases done : d.perform callback world op with
    | error f =>
      rw [done] at same
      simp only [run, done, mapError same, Except.map, and_self]
    | ok ended =>
      obtain ⟨outcome, e, later⟩ := ended
      rw [done] at same
      obtain ⟨⟨_, f, _⟩, went, ends⟩ := mapOk same
      obtain ⟨rfl, sameEnd⟩ := Prod.mk.inj ends
      obtain ⟨sameClock, rfl⟩ := Prod.mk.inj sameEnd
      rw [runCons callback went, runCons callback done]
      obtain ⟨outcomes, last⟩ := ih others sameClock _
      exact ⟨congrArg (List.cons _) outcomes, last⟩

theorem runSeenAlike (faithful : Timer.Faithful view) (callback : Callback World) {c d : Clock}
    (alike : c.seen view = d.seen view) (world : World) {ops : List Operation} (unsaved : ∀ op ∈ ops, op.unsaved) :
    (c.run callback world ops).1 = (d.run callback world ops).1 ∧
      (c.run callback world ops).2.map (fun (e, world) => (e.seen view, world)) =
        (d.run callback world ops).2.map fun (e, world) => (e.seen view, world) := by
  refine runHiding (fun op member c d world same => ?_) alike world
  have left := performSeen faithful callback c world (unsaved op member)
  rw [same, performSeen faithful callback d world (unsaved op member)] at left
  exact left.symm

end

end Clock
end RobotLink
