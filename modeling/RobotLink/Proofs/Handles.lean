import RobotLink.Proofs.Phase
import RobotLink.Proofs.TickNumbers

/-! Operations on one timer of a clock. They find it by its id or answer that there is none, change it and
nothing else, and so go together in either order with those on another one. They return as long as the
match that they schedule is in range. -/
namespace RobotLink

theorem Ticks.addCountIff {now : Ticks} (exact : now.Normalized) (n : UInt64) :
    (∃ next, now.addCount n = .ok next) ↔ now.get + n.toNat < range := by
  rcases Nat.lt_or_ge (now.get + n.toNat) range with room | beyond
  · obtain ⟨next, added, _⟩ := addCountMeets exact room
    exact ⟨fun _ => room, fun _ => ⟨next, added⟩⟩
  · rw [addCountFails exact beyond]
    exact ⟨nofun, fun room => absurd room (Nat.not_lt.2 beyond)⟩

theorem mapReturns {ε α β : Type} {x : Except ε α} {f : α → β} : (∃ b, x.map f = .ok b) ↔ ∃ a, x = .ok a := by
  cases x with
  | error e => exact ⟨nofun, nofun⟩
  | ok a => exact ⟨fun _ => ⟨a, rfl⟩, fun _ => ⟨f a, rfl⟩⟩

namespace Timer
variable {now : Ticks} {t : Timer}

def HasRoom (t : Timer) (now : Ticks) (period : UInt64) : Prop :=
  if t.period = 0 then now.get + period.toNat < Ticks.range
  else t.togo now * period.toNat + t.period.toNat / 2 < wideSize ∧
    now.get + min (rescaled (t.togo now) t.period.toNat period.toNat) (UInt64.size - 1) < Ticks.range

theorem armIff (exact : now.Normalized) : (∃ u, t.arm now = .ok u) ↔ now.get + t.period.toNat < Ticks.range := by
  rw [← Ticks.addCountIff exact, ← mapReturns (f := fun next : Ticks => ({ t with nextMatch := next } : Timer))]
  rfl

theorem rebaseIff (enabled : t.enabled = true) (exact : now.Normalized) (next : t.nextMatch.Normalized)
    (period : UInt64) : (∃ u, t.rebase period now = .ok u) ↔ t.HasRoom now period := by
  unfold HasRoom
  split
  next zero =>
    have whole : t.rebase period now = (now.addCount period).map fun next => { t with period, nextMatch := next } := by
      rw [rebase, if_neg (by simp [enabled]), if_pos zero]
      rfl
    rw [whole, mapReturns, Ticks.addCountIff exact]
  next some =>
    obtain ⟨d, difference, _, distance⟩ := Ticks.saturatingSubExact next exact
    have togo : d.get = t.togo now := by
      rw [Timer.togo]
      omega
    have positive : 0 < t.period.toNat := Nat.pos_of_ne_zero fun zero => some (UInt64.toNat_inj.1 zero)
    have on : t.schedulable := (schedulableIff t).2 ⟨enabled, positive⟩
    rw [← togo]
    by_cases wide : d.get * period.toNat + t.period.toNat / 2 < wideSize
    · have product : d.get * period.toNat < wideSize := Nat.lt_of_le_of_lt (Nat.le_add_right _ _) wide
      rw [rebaseScales on difference (if_pos product) (if_pos wide), mapReturns, Ticks.addCountIff exact,
        clampWordLeast, ← rescaled]
      exact (and_iff_right wide).symm
    · refine ⟨?_, fun room => absurd room.1 wide⟩
      rintro ⟨u, done⟩
      rw [rebase, if_neg (by simp [enabled]), if_neg some, difference, okBind] at done
      obtain ⟨product, multiplied, done⟩ := bindOk done
      obtain ⟨rounded, half, _⟩ := bindOk done
      rw [mulWideOk multiplied, addWide, if_neg wide] at half
      cases half

end Timer

namespace Clock
variable {World : Type} {callback : Callback World} {c d : Clock} {world later : World} {op : Operation}
  {id other : TimerId} {timers : List (TimerId × Timer)} {t : Timer} {now : Ticks}

def Operation.target? : Operation → Option TimerId
  | .remove id => some id
  | op => op.setting?.map Prod.fst

def Operation.treat (op : Operation) (now : Ticks) (t : Timer) : Except Fault (Option Timer) :=
  match op.setting? with
  | some (_, change) => (change now t).map some
  | none => .ok none

def Operation.schedules (t : Timer) : Operation → Bool
  | .enable _ enabled => enabled && !t.enabled
  | .setCompare .. | .setPrescaler .. => t.enabled
  | _ => false

def Operation.HasRoom (now : Ticks) (t : Timer) : Operation → Prop
  | .enable .. => now.get + t.period.toNat < Ticks.range
  | .setCompare _ compare => t.HasRoom now (Timer.periodOf compare t.prescaler)
  | .setPrescaler _ prescaler => t.HasRoom now (Timer.periodOf t.compare prescaler)
  | _ => True

theorem treatReturns (quiet : op.schedules t = false) : ∃ after, op.treat now t = .ok after := by
  cases op with
  | enable id enabled =>
    refine mapReturns.2 ?_
    cases enabled with
    | false => cases on : t.enabled <;> simp [Timer.switch, on]
    | true =>
      have on : t.enabled = true := by simpa [Operation.schedules] using quiet
      simp [Timer.switch, on]
  | setCompare | setPrescaler =>
    have off : t.enabled = false := quiet
    refine mapReturns.2 ?_
    simp [Timer.setCompare, Timer.setPrescaler, Timer.rebase, off]
  | _ => exact ⟨none, rfl⟩

theorem treatIff (exact : now.Normalized) (next : t.nextMatch.Normalized) :
    (∃ after, op.treat now t = .ok after) ↔ (op.schedules t = true → op.HasRoom now t) := by
  cases schedules : op.schedules t with
  | false => exact ⟨fun _ => nofun, fun _ => treatReturns schedules⟩
  | true =>
    rw [eq_self, forall_const]
    cases op with
    | enable id enabled =>
      obtain ⟨rfl, off⟩ : enabled = true ∧ t.enabled = false := by simpa [Operation.schedules] using schedules
      refine mapReturns.trans (Iff.trans ?_ (Timer.armIff exact))
      simp only [Timer.switch, off, Bool.false_eq_true, if_false, if_true]
      exact mapReturns (f := fun t : Timer => t.setEnabled true)
    | setCompare id compare => exact mapReturns.trans (Timer.rebaseIff (t := { t with compare }) schedules exact next _)
    | setPrescaler id prescaler =>
      exact mapReturns.trans (Timer.rebaseIff (t := { t with prescaler }) schedules exact next _)
    | _ => cases schedules

def amended (id : TimerId) (after : Option Timer) (timers : List (TimerId × Timer)) : List (TimerId × Timer) :=
  timers.filterMap fun (other, t) => if other = id then after.map (other, ·) else some (other, t)

def amend (c : Clock) (id : TimerId) (after : Option Timer) : Clock := { c with timers := amended id after c.timers }

theorem amendedOther (after : Option Timer) (t : Timer) (timers : List (TimerId × Timer)) (differs : other ≠ id) :
    amended id after ((other, t) :: timers) = (other, t) :: amended id after timers := by
  rw [amended, List.filterMap_cons]
  simp only [differs, if_false]
  rfl

theorem amendedAbsent (after : Option Timer) (absent : id ∉ timers.map Prod.fst) :
    amended id after timers = timers := by
  induction timers with
  | nil => rfl
  | cons head rest ih =>
    obtain ⟨other, t⟩ := head
    have differs : id ≠ other := List.ne_of_not_mem_cons absent
    rw [amendedOther after t rest (Ne.symm differs), ih (List.not_mem_of_not_mem_cons absent)]

theorem amendedFirst (after : Option Timer) (t : Timer) (absent : id ∉ timers.map Prod.fst) :
    amended id after ((id, t) :: timers) = (after.map (id, ·)).toList ++ timers := by
  have rest := amendedAbsent after absent
  rw [amended] at rest
  rw [amended, List.filterMap_cons, rest]
  simp only [if_true]
  cases after <;> rfl

theorem lookupAmended (after : Option Timer) (differs : other ≠ id) (timers : List (TimerId × Timer)) :
    (amended id after timers).lookup other = timers.lookup other := by
  induction timers with
  | nil => rfl
  | cons head rest ih =>
    obtain ⟨first, t⟩ := head
    by_cases same : first = id
    · subst same
      have skip : (other == first) = false := by simpa using differs
      rw [List.lookup_cons, skip, ← ih, amended, List.filterMap_cons]
      cases after with
      | none => simp [amended]
      | some u => simp [amended, List.lookup_cons, skip]
    · rw [amendedOther after t rest same, List.lookup_cons, List.lookup_cons, ih]

theorem amendedTwice (first second : Option Timer) (differs : other ≠ id) (timers : List (TimerId × Timer)) :
    amended other second (amended id first timers) = amended id first (amended other second timers) := by
  simp only [amended, List.filterMap_filterMap]
  congr 1
  funext (entry, t)
  by_cases same : entry = id
  · subst same
    cases first <;> simp [Ne.symm differs]
  · by_cases equal : entry = other
    · subst equal
      cases second <;> simp [same]
    · simp [same, equal]

theorem updateAmends (operation : Timer → Except Fault Timer) (distinct : (timers.map Prod.fst).Nodup) :
    updateTimer id operation timers =
      match timers.lookup id with
      | none => .error (.unknownTimer id)
      | some t =>
        match operation t with
        | .ok u => .ok (amended id (some u) timers)
        | .error f => .error (.fault f) := by
  induction timers with
  | nil => rfl
  | cons head rest ih =>
    obtain ⟨other, t⟩ := head
    obtain ⟨absent, others⟩ := List.nodup_cons.1 distinct
    by_cases same : other = id
    · subst same
      simp only [updateTimer, if_true, List.lookup_cons_self, amendedFirst _ t absent]
      cases operation t <;> rfl
    · have skip : (id == other) = false := by simpa using Ne.symm same
      simp only [updateTimer, same, if_false, List.lookup_cons, skip, ih others, amendedOther _ t rest same]
      cases rest.lookup id with
      | none => rfl
      | some u =>
        dsimp only
        cases operation u <;> rfl

theorem eraseAmends (distinct : (timers.map Prod.fst).Nodup) :
    timers.eraseP (·.1 = id) = amended id none timers := by
  induction timers with
  | nil => rfl
  | cons head rest ih =>
    obtain ⟨other, t⟩ := head
    obtain ⟨absent, others⟩ := List.nodup_cons.1 distinct
    by_cases same : other = id
    · subst same
      rw [amendedFirst none t absent, List.eraseP_cons_of_pos (by simp)]
      rfl
    · rw [amendedOther none t rest same, List.eraseP_cons_of_neg (by simpa using same), ih others]

inductive Treated (c : Clock) (op : Operation) (id : TimerId) : Outcome → Clock → Prop
  | unknown (none : c.timer? id = none) : Treated c op id (.unknownTimer id) c
  | done {t : Timer} {after : Option Timer} (found : c.timer? id = some t)
      (treated : op.treat c.current t = .ok after) : Treated c op id .done (c.amend id after)

theorem settingTarget {change : Ticks → Timer → Except Fault Timer} (sets : op.setting? = some (other, change))
    (target : op.target? = some id) : other = id := by
  cases op <;> cases sets <;> exact Option.some.inj target

theorem performTarget (distinct : c.ids.Nodup) (target : op.target? = some id) (callback : Callback World)
    (world : World) :
    c.perform callback world op =
      match c.timer? id with
      | none => .ok (.unknownTimer id, c, world)
      | some t => (op.treat c.current t).map fun after => (.done, c.amend id after, world) := by
  cases sets : op.setting? with
  | some set =>
    obtain ⟨other, change⟩ := set
    obtain rfl := settingTarget sets target
    rw [performSets sets, onTimer, updateAmends _ distinct, ← timer?]
    cases c.timer? other with
    | none => rfl
    | some t =>
      simp only [Operation.treat, sets]
      cases change c.current t <;> rfl
  | none =>
    cases op with
    | enable | setCompare | setPrescaler => cases sets
    | remove other =>
      cases target
      simp only [perform, removeTimer, eraseAmends distinct]
      cases c.timer? id <;> rfl
    | _ => cases target

theorem performTreats (distinct : c.ids.Nodup) (target : op.target? = some id) {outcome : Outcome} :
    c.perform callback world op = .ok (outcome, d, later) ↔ later = world ∧ c.Treated op id outcome d := by
  rw [performTarget distinct target]
  constructor
  · intro performed
    cases found : c.timer? id with
    | none =>
      rw [found] at performed
      cases performed
      exact ⟨rfl, .unknown found⟩
    | some t =>
      rw [found] at performed
      obtain ⟨after, treated, same⟩ := mapOk performed
      cases same
      exact ⟨rfl, .done found treated⟩
  · rintro ⟨rfl, treats⟩
    cases treats with
    | unknown none => rw [none]
    | done found treated =>
      rw [found]
      dsimp only
      rw [treated]
      rfl

theorem amendTimer (c : Clock) (after : Option Timer) (differs : other ≠ id) :
    (c.amend id after).timer? other = c.timer? other :=
  lookupAmended after differs c.timers

theorem amendTwice (c : Clock) (first second : Option Timer) (differs : other ≠ id) :
    (c.amend id first).amend other second = (c.amend other second).amend id first := by
  simp only [amend, amendedTwice first second differs]

theorem Treated.swap {a b : Operation} {first second : Outcome} {e : Clock} (differs : other ≠ id)
    (before : c.Treated a id first d) (behind : d.Treated b other second e) :
    ∃ m, c.Treated b other second m ∧ m.Treated a id first e := by
  cases before with
  | unknown none =>
    cases behind with
    | unknown missing => exact ⟨_, .unknown missing, .unknown none⟩
    | done found treated =>
      exact ⟨_, .done found treated, .unknown ((amendTimer c _ (Ne.symm differs)).trans none)⟩
  | done found treated =>
    cases behind with
    | unknown missing =>
      exact ⟨_, .unknown ((amendTimer c _ differs).symm.trans missing), .done found treated⟩
    | done also others =>
      refine ⟨_, .done ((amendTimer c _ differs).symm.trans also) others, ?_⟩
      rw [amendTwice c _ _ differs]
      exact .done ((amendTimer c _ (Ne.symm differs)).trans found) treated

theorem runTwoIff {a b : Operation} {first second : Outcome} :
    c.run callback world [a, b] = ([first, second], .ok (d, later)) ↔
      ∃ m between, c.perform callback world a = .ok (first, m, between) ∧
        m.perform callback between b = .ok (second, d, later) := by
  constructor
  · intro ran
    obtain ⟨_, m, between, performed, onward, outcomes⟩ := runOk (congrArg Prod.snd ran)
    obtain ⟨_, _, _, also, last, rest⟩ := runOk onward
    rw [ran, rest] at outcomes
    cases last
    cases outcomes
    exact ⟨m, between, performed, also⟩
  · rintro ⟨m, between, performed, also⟩
    rw [runCons callback performed, runCons callback also]
    rfl

theorem targetsCommute {a b : Operation} {first second : Outcome} (sound : c.Sound) (own : a.target? = some id)
    (others : b.target? = some other) (differs : other ≠ id)
    (ran : c.run callback world [a, b] = ([first, second], .ok (d, later))) :
    c.run callback world [b, a] = ([second, first], .ok (d, later)) := by
  obtain ⟨m, between, performed, also⟩ := runTwoIff.1 ran
  obtain ⟨rfl, before⟩ := (performTreats sound.distinct own).1 performed
  obtain ⟨rfl, behind⟩ := (performTreats (sound.performed performed).distinct others).1 also
  obtain ⟨n, earlier, last⟩ := before.swap differs behind
  have swapped : c.perform callback later b = .ok (second, n, later) :=
    (performTreats sound.distinct others).2 ⟨rfl, earlier⟩
  refine runTwoIff.2 ⟨n, later, swapped, ?_⟩
  exact (performTreats (sound.performed swapped).distinct own).2 ⟨rfl, last⟩

end Clock
end RobotLink
