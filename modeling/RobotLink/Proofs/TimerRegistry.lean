import Mathlib.Data.List.Range
import RobotLink.Proofs.Chronology
import RobotLink.Proofs.Handles

/-! The timers that a clock has, over any operations on it. They are those created and not removed, in order
of creation; ids count up from zero and never come back, and nothing that is to be called for a removed
timer makes a difference. -/
namespace RobotLink
namespace Clock

def Outcome.created? : Outcome → Option TimerId
  | .created id => some id
  | _ => none

def Operation.removed? : Operation → Outcome → Option TimerId
  | .remove id, .done => some id
  | _, _ => none

def creations (outcomes : List Outcome) : List TimerId := outcomes.filterMap Outcome.created?

def removals (ops : List Operation) (outcomes : List Outcome) : List TimerId :=
  (ops.zip outcomes).filterMap fun (op, outcome) => op.removed? outcome

inductive Registers (c : Clock) : Operation → Outcome → Clock → Prop
  | created {d : Clock} (next : d.nextId.toNat = c.nextId.toNat + 1) (ids : d.ids = c.ids ++ [⟨c.nextId⟩]) :
      Registers c .create (.created ⟨c.nextId⟩) d
  | removed {id : TimerId} {d : Clock} (member : id ∈ c.ids) (next : d.nextId = c.nextId)
      (ids : d.ids = c.ids.filter (· ≠ id)) : Registers c (.remove id) .done d
  | kept {op : Operation} {outcome : Outcome} {d : Clock} (creates : outcome.created? = none)
      (removes : op.removed? outcome = none) (next : d.nextId = c.nextId) (ids : d.ids = c.ids) :
      Registers c op outcome d

section
variable {World : Type} {callback other : Callback World} {c d : Clock} {world later : World} {op : Operation}
  {outcome : Outcome} {id : TimerId} {timers : List (TimerId × Timer)}

theorem lookupMember : (timers.lookup id).isSome ↔ id ∈ timers.map Prod.fst := by
  induction timers with
  | nil => exact ⟨nofun, nofun⟩
  | cons head rest ih =>
    obtain ⟨first, t⟩ := head
    rw [List.lookup_cons, List.map_cons, List.mem_cons, ← ih]
    by_cases same : id = first
    · simp [same]
    · simp [same, beq_eq_false_iff_ne.2 same]

theorem timerMember : (c.timer? id).isSome ↔ id ∈ c.ids := lookupMember

theorem amendedSome (t : Timer) (timers : List (TimerId × Timer)) :
    (amended id (some t) timers).map Prod.fst = timers.map Prod.fst := by
  induction timers with
  | nil => rfl
  | cons head rest ih =>
    obtain ⟨first, u⟩ := head
    by_cases same : first = id <;> simp_all [amended]

theorem amendedNone (timers : List (TimerId × Timer)) :
    (amended id none timers).map Prod.fst = (timers.map Prod.fst).filter (· ≠ id) := by
  induction timers with
  | nil => rfl
  | cons head rest ih =>
    obtain ⟨first, u⟩ := head
    by_cases same : first = id <;> simp_all [amended]

theorem treatedRegisters (target : op.target? = some id) (treats : c.Treated op id outcome d) :
    Registers c op outcome d := by
  cases treats with
  | unknown => exact .kept rfl (by cases op <;> rfl) rfl rfl
  | done found treated =>
    cases op with
    | remove =>
      cases target
      cases treated
      exact .removed (timerMember.1 (found ▸ rfl)) rfl (amendedNone c.timers)
    | enable | setCompare | setPrescaler =>
      obtain ⟨t, _, rfl⟩ := mapOk treated
      exact .kept rfl rfl rfl (amendedSome t c.timers)
    | _ => cases target

theorem performRegisters (sound : c.Sound) (performed : c.perform callback world op = .ok (outcome, d, later)) :
    Registers c op outcome d := by
  cases target : op.target? with
  | some id => exact treatedRegisters target ((performTreats sound.distinct target).1 performed).2
  | none =>
    cases op with
    | remove | enable | setCompare | setPrescaler => cases target
    | create =>
      obtain ⟨⟨_, d⟩, made, same⟩ := mapOk performed
      cases same
      obtain ⟨rfl, room, rfl⟩ := createOk made
      refine .created ?_ List.map_append
      rw [UInt32.toNat_add]
      exact Nat.mod_eq_of_lt room
    | setCpuUsage | setTargetSpeed | stop | save =>
      cases performed
      exact .kept rfl rfl rfl rfl
    | start =>
      cases performed
      unfold start
      split <;> exact .kept rfl rfl rfl rfl
    | reset =>
      cases performed
      exact .kept rfl rfl rfl (by simp [ids, reset, Function.comp_def])
    | advance delta =>
      obtain ⟨_, advanced, same⟩ := mapOk performed
      cases same
      obtain ⟨⟨_, struck⟩, next⟩ := advanceOk advanced
      exact .kept rfl rfl next (strikesKeep struck).1
    | step now =>
      obtain ⟨_, stepped, same⟩ := mapOk performed
      cases same
      obtain ⟨⟨_, struck⟩, next⟩ := stepOk stepped
      exact .kept rfl rfl next (strikesKeep struck).1
    | load saved =>
      cases performed
      exact .kept rfl rfl rfl (restoresKeep saved.timers c.timers).1

structure Registered (c : Clock) (ops : List Operation) (outcomes : List Outcome) (d : Clock) : Prop where
  next : d.nextId.toNat = c.nextId.toNat + (creations outcomes).length
  numbered : (creations outcomes).map (·.id.toNat) = List.range' c.nextId.toNat (creations outcomes).length
  live : d.ids = (c.ids ++ creations outcomes).filter (· ∉ removals ops outcomes)
  gone : ∀ id ∈ removals ops outcomes, id.id.toNat < d.nextId.toNat

theorem creationsCons (outcome : Outcome) (outcomes : List Outcome) :
    creations (outcome :: outcomes) = outcome.created?.toList ++ creations outcomes := by
  rw [creations, List.filterMap_cons]
  cases outcome.created? <;> rfl

theorem removalsCons (op : Operation) (ops : List Operation) (outcome : Outcome) (outcomes : List Outcome) :
    removals (op :: ops) (outcome :: outcomes) = (op.removed? outcome).toList ++ removals ops outcomes := by
  rw [removals, List.zip_cons_cons, List.filterMap_cons]
  dsimp only
  cases op.removed? outcome <;> rfl

theorem Registered.laterIds {ops : List Operation} {outcomes : List Outcome} (registered : Registered c ops outcomes d)
    (member : id ∈ creations outcomes) : c.nextId.toNat ≤ id.id.toNat := by
  have listed : id.id.toNat ∈ (creations outcomes).map (·.id.toNat) := List.mem_map_of_mem member
  rw [registered.numbered, List.mem_range'_1] at listed
  exact listed.1

theorem Registers.onward {m : Clock} {ops : List Operation} {outcomes : List Outcome} (sound : c.Sound)
    (first : Registers c op outcome m) (rest : Registered m ops outcomes d) :
    Registered c (op :: ops) (outcome :: outcomes) d := by
  have fresh (id : TimerId) (listed : id ∈ creations outcomes) := rest.laterIds listed
  obtain ⟨next, numbered, live, gone⟩ := rest
  cases first with
  | created step ids =>
    rw [step] at next numbered
    rw [ids] at live
    have listed : creations (.created ⟨c.nextId⟩ :: outcomes) = ⟨c.nextId⟩ :: creations outcomes := creationsCons ..
    refine ⟨?_, ?_, ?_, removalsCons .create .. ▸ gone⟩ <;> rw [listed]
    · rw [next, List.length_cons, Nat.add_assoc, Nat.add_comm 1]
    · rw [List.map_cons, numbered, List.length_cons, List.range'_succ]
    · rw [live, removalsCons, List.append_assoc]
      rfl
  | @removed away _ member step ids =>
    have below := sound.below away member
    have listed : removals (.remove away :: ops) (.done :: outcomes) = away :: removals ops outcomes := removalsCons ..
    rw [step] at next numbered
    rw [ids] at live
    rw [← step] at below
    refine ⟨?_, ?_, ?_, ?_⟩
    · rw [next, creationsCons]
      rfl
    · rw [creationsCons]
      exact numbered
    · have apart : (creations outcomes).filter (· ≠ away) = creations outcomes := by
        refine List.filter_eq_self.2 fun id listed => decide_eq_true fun same => ?_
        have above := fresh id listed
        rw [same] at above
        omega
      rw [live, creationsCons, listed]
      conv => lhs; rw [← apart, ← List.filter_append, List.filter_filter]
      refine List.filter_congr fun id _ => ?_
      simp [Bool.and_comm]
    · rw [listed]
      refine List.forall_mem_cons.2 ⟨?_, gone⟩
      rw [step] at below
      omega
  | kept creates removes step ids =>
    rw [step] at next numbered
    rw [ids] at live
    refine ⟨?_, ?_, ?_, ?_⟩ <;>
      simp only [creationsCons, removalsCons, creates, removes, Option.toList_none, List.nil_append]
    · exact next
    · exact numbered
    · exact live
    · exact gone

theorem runRegisters {ops : List Operation} (sound : c.Sound) (ran : (c.run callback world ops).2 = .ok (d, later)) :
    Registered c ops (c.run callback world ops).1 d := by
  induction ops generalizing c world with
  | nil =>
    cases ran
    refine ⟨rfl, rfl, ?_, nofun⟩
    simp [run, creations, removals]
  | cons op rest ih =>
    obtain ⟨outcome, m, between, performed, onward, outcomes⟩ := runOk ran
    rw [outcomes]
    exact (performRegisters sound performed).onward sound (ih (sound.performed performed) onward)

end

/-! Callbacks of timers that are gone. -/

section
variable {World : Type} {callback other : Callback World} {c d : Clock} {id : TimerId}

def Callback.ElseAlike (id : TimerId) (callback other : Callback World) : Prop :=
  ∀ timer ≠ id, callback timer = other timer

theorem nextSilent {target : Ticks} {cap : Option Nat} {s : Sweep World} (alike : Callback.ElseAlike id callback other)
    (absent : id ∉ s.timers.map Prod.fst) : s.next callback target cap = s.next other target cap := by
  unfold Sweep.next
  cases found : earliest? s.timers with
  | none => rfl
  | some entry =>
    obtain ⟨i, timer, t⟩ := entry
    have member : timer ∈ s.timers.map Prod.fst :=
      List.mem_map.2 ⟨(timer, t), List.mem_of_getElem? (earliestAt found).1, rfl⟩
    simp only [alike timer fun same => absent (same ▸ member)]

theorem runSilent {target : Ticks} {cap : Option Nat} {s : Sweep World} (alike : Callback.ElseAlike id callback other)
    (absent : id ∉ s.timers.map Prod.fst) : s.run callback target cap = s.run other target cap := by
  fun_induction Sweep.run callback target cap s with
  | case1 s f next | case2 s next | case3 s next =>
    rw [nextSilent alike absent] at next
    rw [Sweep.runNext, next]
  | case4 s n next ih =>
    obtain ⟨_, _, _, _, serves⟩ := Sweep.nextServes next
    rw [nextSilent alike absent] at next
    conv => rhs; rw [Sweep.runNext, next]
    exact ih ((servedIds serves).symm ▸ absent)

theorem advanceSilent (alike : Callback.ElseAlike id callback other) (absent : id ∉ c.ids) (world : World)
    (delta : UInt64) : c.advance callback world delta = c.advance other world delta := by
  unfold advance
  refine bind_congr fun sum => bind_congr fun target => ?_
  rw [runSilent alike (s := ⟨c.current, c.timers, 0, world⟩) absent]

theorem performSilent (alike : Callback.ElseAlike id callback other) (absent : id ∉ c.ids) (world : World)
    (op : Operation) : c.perform callback world op = c.perform other world op := by
  cases op with
  | advance delta => simp only [perform, advanceSilent alike absent]
  | step now =>
    have same : c.step callback world now = c.step other world now := by
      unfold step
      split
      · rfl
      cases c.lastStep with
      | none => rfl
      | some last =>
        refine bind_congr fun product => bind_congr fun scaled => ?_
        dsimp only
        rw [advanceSilent alike (c := { c with lastStep := some now, tickFraction := _ }) absent]
    simp only [perform, same]
  | _ => rfl

theorem Registers.gone {op : Operation} {outcome : Outcome} (registers : Registers c op outcome d)
    (below : id.id.toNat < c.nextId.toNat) (absent : id ∉ c.ids) : id.id.toNat < d.nextId.toNat ∧ id ∉ d.ids := by
  cases registers with
  | created step ids =>
    refine ⟨by omega, ?_⟩
    rw [ids, List.mem_append, List.mem_singleton]
    rintro (old | rfl)
    · exact absent old
    · exact Nat.lt_irrefl _ below
  | removed member step ids =>
    rw [step, ids]
    exact ⟨below, fun kept => absent (List.mem_of_mem_filter kept)⟩
  | kept creates removes step ids =>
    rw [step, ids]
    exact ⟨below, absent⟩

theorem goneSilent (alike : Callback.ElseAlike id callback other) (sound : c.Sound)
    (below : id.id.toNat < c.nextId.toNat) (absent : id ∉ c.ids) (world : World) (ops : List Operation) :
    c.run callback world ops = c.run other world ops := by
  induction ops generalizing c world with
  | nil => rfl
  | cons op rest ih =>
    have same := performSilent alike absent world op
    cases performed : c.perform other world op with
    | error f =>
      rw [performed] at same
      simp only [run, performed, same]
    | ok ended =>
      obtain ⟨outcome, d, later⟩ := ended
      rw [performed] at same
      obtain ⟨still, left⟩ := (performRegisters sound performed).gone below absent
      rw [runCons callback same, runCons other performed, ih (sound.performed performed) still left]

end

structure Registry (ops : List Operation) (outcomes : List Outcome) (c : Clock) : Prop where
  ascending : c.ids.Pairwise fun a b => a.id.toNat < b.id.toNat
  below : ∀ id ∈ c.ids, id.id.toNat < c.nextId.toNat
  numbered : (creations outcomes).map (·.id.toNat) = List.range c.nextId.toNat
  live : c.ids = (creations outcomes).filter (· ∉ removals ops outcomes)

/-- After any operations the ids ascend below the next one, in the order that they were given in. An operation
on a timer that was created and not removed is on that timer alone, and returns as long as the match that
it schedules is in range; on any other it answers that there is none and changes nothing. What would be
called for a removed timer makes no difference, and operations on two timers go together in either order. -/
theorem timersRegistered {World : Type} {callback : Callback World} {world later : World} {ops : List Operation}
    {outcomes : List Outcome} {c : Clock} (ran : fresh.run callback world ops = (outcomes, .ok (c, later))) :
    Registry ops outcomes c ∧
      (∀ {op : Operation} {id : TimerId}, op.target? = some id →
        ∀ {World : Type} (callback : Callback World) (world : World),
          (id ∈ creations outcomes ∧ id ∉ removals ops outcomes → ∃ t, c.timer? id = some t ∧
            c.perform callback world op =
              (op.treat c.current t).map (fun after => (.done, c.amend id after, world)) ∧
            (op.schedules t = false → ∃ after, op.treat c.current t = .ok after) ∧
            (c.Normalized → ((∃ after, op.treat c.current t = .ok after) ↔
              (op.schedules t = true → op.HasRoom c.current t)))) ∧
          (¬ (id ∈ creations outcomes ∧ id ∉ removals ops outcomes) →
            c.perform callback world op = .ok (.unknownTimer id, c, world))) ∧
      (∀ id ∈ removals ops outcomes, ∀ {World : Type} {callback other : Callback World},
        Callback.ElseAlike id callback other →
          ∀ (world : World) (ops : List Operation), c.run callback world ops = c.run other world ops) ∧
      ∀ {a b : Operation} {id other : TimerId}, a.target? = some id → b.target? = some other → other ≠ id →
        ∀ {World : Type} (callback : Callback World) (world later : World) (first second : Outcome) (d : Clock),
          c.run callback world [a, b] = ([first, second], .ok (d, later)) ↔
            c.run callback world [b, a] = ([second, first], .ok (d, later)) := by
  have last := congrArg Prod.snd ran
  have sound : c.Sound := (Reachable.fresh.run last).sound
  obtain ⟨next, numbered, live, gone⟩ := runRegisters Reachable.fresh.sound last
  rw [ran] at next numbered live gone
  have counted : c.nextId.toNat = (creations outcomes).length := next.trans (Nat.zero_add _)
  have listed (id : TimerId) : id ∈ c.ids ↔ id ∈ creations outcomes ∧ id ∉ removals ops outcomes := by
    rw [live]
    exact List.mem_filter.trans (and_congr_right fun _ => decide_eq_true_iff)
  refine ⟨⟨sound.ascending, sound.below, ?_, live⟩, ?_, ?_, ?_⟩
  · rw [counted, List.range_eq_range']
    exact numbered
  · intro op id target World callback world
    rw [← listed, performTarget sound.distinct target, ← timerMember]
    refine ⟨fun member => ?_, fun absent => ?_⟩
    · obtain ⟨t, found⟩ := Option.isSome_iff_exists.1 member
      rw [found]
      obtain ⟨_, _, entries, _⟩ := List.lookup_eq_some_iff.1 found
      have entry : (id, t) ∈ c.timers := entries ▸ List.mem_append_right _ List.mem_cons_self
      exact ⟨t, rfl, rfl, treatReturns, fun normalized => treatIff normalized.current (normalized.timers _ entry)⟩
    · rw [Option.not_isSome_iff_eq_none.1 absent]
  · intro id away World callback other alike world ops
    exact goneSilent alike sound (gone id away) (fun member => ((listed id).1 member).2 away) world ops
  · intro a b id other own others differs World callback world later first second d
    exact ⟨targetsCommute sound own others differs, targetsCommute sound others own (Ne.symm differs)⟩

theorem removedTimerUnknown :
    let ops : List Operation :=
      [.create, .create, .setCompare ⟨0⟩ 4, .enable ⟨0⟩ true, .advance 9, .remove ⟨0⟩, .create, .remove ⟨0⟩,
        .setCompare ⟨2⟩ 3]
    let c : Clock := { fresh with
      timers := [(⟨1⟩, .fresh), (⟨2⟩, ⟨false, 3, 1, 3, ⟨0, 0⟩, 0⟩)], nextId := 3, current := ⟨0, 9⟩ }
    (∃ outcomes, fresh.run .record [] ops = (outcomes, .ok (c, [⟨⟨0⟩, ⟨0, 8⟩⟩, ⟨⟨0⟩, ⟨0, 4⟩⟩])) ∧
      Registry ops outcomes c) ∧
      c.perform .record [] (.enable ⟨0⟩ true) = .ok (.unknownTimer ⟨0⟩, c, []) ∧
      (∃ after, Operation.treat (.enable ⟨2⟩ true) c.current ⟨false, 3, 1, 3, ⟨0, 0⟩, 0⟩ = .ok after) ∧
      c.run .record [] [.remove ⟨1⟩, .enable ⟨2⟩ true] = c.run .record [] [.enable ⟨2⟩ true, .remove ⟨1⟩] := by
  intro ops c
  have ran : fresh.run .record [] ops =
      ([.created ⟨0⟩, .created ⟨1⟩, .done, .done, .advanced ⟨2, false⟩, .done, .created ⟨2⟩, .unknownTimer ⟨0⟩, .done],
        .ok (c, [⟨⟨0⟩, ⟨0, 8⟩⟩, ⟨⟨0⟩, ⟨0, 4⟩⟩])) := by cbv
  obtain ⟨registry, answers, _, commute⟩ := timersRegistered ran
  have first : Operation.target? (.enable ⟨0⟩ true) = some ⟨0⟩ := rfl
  have third : Operation.target? (.enable ⟨2⟩ true) = some ⟨2⟩ := rfl
  have second : Operation.target? (.remove ⟨1⟩) = some ⟨1⟩ := rfl
  obtain ⟨_, unknown⟩ := answers first .record []
  obtain ⟨known, _⟩ := answers third .record []
  obtain ⟨t, found, _, _, returns⟩ := known (by decide)
  have normalized : c.Normalized := ⟨by decide, by decide⟩
  obtain rfl : t = ⟨false, 3, 1, 3, ⟨0, 0⟩, 0⟩ := Option.some.inj (found.symm.trans (by decide))
  have room : c.current.get + (3 : UInt64).toNat < Ticks.range := by decide
  have after := (returns normalized).2 fun _ => room
  have backward : c.run .record [] [.enable ⟨2⟩ true, .remove ⟨1⟩] = ([.done, .done], .ok ({ c with
      timers := [(⟨2⟩, ⟨true, 3, 1, 3, ⟨0, 12⟩, 0⟩)] }, [])) := by cbv
  have forward := (commute second third (by decide) .record [] [] .done .done _).2 backward
  exact ⟨⟨_, ran, registry⟩, unknown (by decide), after, forward.trans backward.symm⟩

theorem lastTickUnschedulable :
    let s : ClockSnapshot := ⟨⟨0xFFFFFFFFFFFFFFFF, 999999⟩, 0, 8000000, .normal, []⟩
    let ops : List Operation := [.create, .setCompare ⟨0⟩ 5, .load s]
    let outcomes : List Outcome := [.created ⟨0⟩, .done, .loaded 0]
    let c : Clock := { fresh with
      timers := [(⟨0⟩, ⟨false, 5, 1, 5, ⟨0, 0⟩, 0⟩)], nextId := 1, current := ⟨0xFFFFFFFFFFFFFFFF, 999999⟩ }
    fresh.run .record [] ops = (outcomes, .ok (c, [])) ∧ ⟨0⟩ ∈ creations outcomes ∧ ⟨0⟩ ∉ removals ops outcomes ∧
      c.perform .record [] (.enable ⟨0⟩ true) = .error .addOverflow := by
  intro s ops outcomes c
  exact ⟨by cbv, by decide, by decide, by cbv⟩

end Clock
end RobotLink
