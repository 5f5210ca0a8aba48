import RobotLink.Proofs.Sweep

/-! Splitting time into steps. Steps that may stop at a cap make the matches of one uncapped
step of all their ticks: the same ones if the last of them was not deferred, and otherwise the
first of them, with the rest of the ticks owed. -/
namespace RobotLink.Clock

structure Step where
  usage : CpuUsage
  delta : UInt64
  deriving DecidableEq, Repr

def Step.ticks : List Step → Nat
  | [] => 0
  | s :: rest => s.delta.toNat + Step.ticks rest

def takeSteps (c : Clock) (log : List Firing) : List Step → Except Fault (List Advanced × Clock × List Firing)
  | [] => .ok ([], c, log)
  | s :: rest => do
    let (outcome, c, log) ← (c.setCpuUsage s.usage).advance .record log s.delta
    let (outcomes, c, log) ← takeSteps c log rest
    return (outcome :: outcomes, c, log)

structure Moved (bound : Nat) (c : Clock) (ticks : Nat) (strikes : List Strike) (d : Clock) : Prop where
  struck : Strikes c.timers strikes d.timers
  due : ∀ s ∈ strikes, s.instant.get ≤ d.total
  current : d.current.Normalized
  notBack : c.current.get ≤ d.current.get
  ready : Ready bound d.timers
  total : d.total = c.total + ticks
  settings : d =
    { c with current := d.current, timers := d.timers, owed := d.owed, cpuUsage := d.cpuUsage }

section
variable {bound : Nat} {c d e : Clock} {strikes more : List Strike}

theorem Moved.none (current : c.current.Normalized) (ready : Ready bound c.timers) : Moved bound c 0 [] c :=
  ⟨.none _, by simp, current, Nat.le_refl _, ready, (Nat.add_zero _).symm, rfl⟩

theorem Moved.trans {first second : Nat} (h : Moved bound c first strikes d) (next : Moved bound d second more e) :
    Moved bound c (first + second) (strikes ++ more) e := by
  refine ⟨strikesAppend h.struck next.struck, ?_, next.current, Nat.le_trans h.notBack next.notBack,
    next.ready, ?_, ?_⟩
  · intro s member
    rcases List.mem_append.1 member with early | late
    · have within := h.due s early
      rw [next.total]
      omega
    · exact next.due s late
  · rw [next.total, h.total, Nat.add_assoc]
  · have later := next.settings
    rw [h.settings] at later
    exact later

theorem Moved.agree {ticks : Nat} (h : Moved bound c ticks strikes d) (other : Moved bound c ticks more e)
    (sameTimers : e.timers = d.timers) (sameOwed : e.owed = d.owed) : d.setCpuUsage e.cpuUsage = e := by
  have sameTotal : e.total = d.total := other.total.trans h.total.symm
  have sameCurrent : e.current = d.current := by
    apply Ticks.getInjective other.current h.current
    unfold Clock.total at sameTotal
    rw [sameOwed] at sameTotal
    exact Nat.add_right_cancel sameTotal
  rw [h.settings, other.settings, sameCurrent, sameTimers, sameOwed]
  rfl

theorem atEndMeets {target : Ticks} (current : c.current.Normalized) (exact : target.Normalized)
    (instants : ∀ s ∈ strikes, s.instant.Normalized) (due : ∀ s ∈ strikes, s.instant.get ≤ target.get)
    (ahead : c.current.get ≤ target.get) (close : target.get - c.current.get < UInt64.size)
    (after : List (TimerId × Timer)) (capped : Bool) :
    (c.atEnd target strikes after capped).current.Normalized ∧
      c.current.get ≤ (c.atEnd target strikes after capped).current.get ∧
      (c.atEnd target strikes after capped).total = target.get := by
  cases capped with
  | false => exact ⟨exact, ahead, Nat.add_zero target.get⟩
  | true =>
    obtain ⟨normalized, notBack, within⟩ := latestMeets current instants due ahead
    refine ⟨normalized, notBack, ?_⟩
    have owed := clampWordExact (n := target.get - (latest c.current strikes).get) (by omega)
    change (latest c.current strikes).get + (clampWord (target.get - (latest c.current strikes).get)).toNat = _
    omega

structure Ended (usage : CpuUsage) (outcome : Advanced) (d : Clock) : Prop where
  sameUsage : d.cpuUsage = usage
  ends : EndsAt d.total usage.cap? d.timers outcome.fired outcome.deferred
  paid : outcome.deferred = false → d.owed = 0

theorem stepMoves (usage : CpuUsage) (delta : UInt64) (current : c.current.Normalized)
    (ready : Ready bound c.timers) (inside : c.total + delta.toNat ≤ bound) (inRange : bound < Ticks.range)
    (fits : c.owed.toNat + delta.toNat < UInt64.size) (log : List Firing) :
    ∃ outcome strikes d, (c.setCpuUsage usage).advance .record log delta =
        .ok (outcome, d, (strikes.map Strike.firing).reverse ++ log) ∧
      Moved bound c delta.toNat strikes d ∧ Ended usage outcome d := by
  obtain ⟨target, strikes, after, capped, exact, sum, struck, left, due, ends, same⟩ :=
    advanceMeets (c := c.setCpuUsage usage) current ready inside inRange
  change target.get = c.current.get + c.owed.toNat + delta.toNat at sum
  obtain ⟨instants, _⟩ := strikesNormalized struck ready.normalized
  have ahead : (c.setCpuUsage usage).current.get ≤ target.get := by
    change c.current.get ≤ _
    omega
  have close : target.get - (c.setCpuUsage usage).current.get < UInt64.size := by
    change _ - c.current.get < _
    omega
  obtain ⟨normalized, notBack, whole⟩ := atEndMeets current exact instants due ahead close after capped
  refine ⟨_, strikes, _, by rw [same, Callback.serveRecord]; rfl, ?_⟩
  cases capped with
  | false =>
    exact ⟨⟨struck, whole ▸ due, normalized, notBack, left, whole.trans sum, rfl⟩, rfl, whole ▸ ends,
      fun _ => rfl⟩
  | true =>
    exact ⟨⟨struck, whole ▸ due, normalized, notBack, left, whole.trans sum, rfl⟩, rfl, whole ▸ ends,
      fun kept => by cases kept⟩

theorem stepsMove {steps : List Step} (current : c.current.Normalized) (ready : Ready bound c.timers)
    (inside : c.total + Step.ticks steps ≤ bound) (inRange : bound < Ticks.range)
    (fits : c.owed.toNat + Step.ticks steps < UInt64.size) (log : List Firing) :
    ∃ outcomes strikes d, c.takeSteps log steps =
        .ok (outcomes, d, (strikes.map Strike.firing).reverse ++ log) ∧
      outcomes.length = steps.length ∧ Moved bound c (Step.ticks steps) strikes d ∧
      ∀ step last, steps.getLast? = some step → outcomes.getLast? = some last → Ended step.usage last d := by
  induction steps generalizing c log with
  | nil => exact ⟨[], [], c, rfl, rfl, .none current ready, fun step last none => by cases none⟩
  | cons s rest ih =>
    rw [Step.ticks] at inside fits ⊢
    obtain ⟨outcome, first, m, taken, moved, ended⟩ :=
      stepMoves s.usage s.delta current ready (by omega) inRange (by omega) log
    have sum := moved.total
    have owed : m.owed.toNat ≤ c.owed.toNat + s.delta.toNat := by
      have notBack := moved.notBack
      unfold total at sum
      omega
    obtain ⟨outcomes, strikes, d, others, count, onward, endedLast⟩ :=
      ih moved.current moved.ready (by omega) (by omega) ((first.map Strike.firing).reverse ++ log)
    refine ⟨outcome :: outcomes, first ++ strikes, d, ?_, ?_, moved.trans onward, ?_⟩
    · rw [takeSteps, taken]
      simp only [bind, Except.bind, others, pure, Except.pure]
      rw [List.map_append, List.reverse_append, List.append_assoc]
    · rw [List.length_cons, List.length_cons, count]
    · cases rest with
      | nil =>
        simp only [takeSteps, Except.ok.injEq, Prod.mk.injEq] at others
        obtain ⟨rfl, rfl, _⟩ := others
        intro step last lastStep lastOutcome
        cases lastStep
        cases lastOutcome
        exact ended
      | cons next rest =>
        cases outcomes with
        | nil => cases count
        | cons following outcomes =>
          rw [List.getLast?_cons_cons, List.getLast?_cons_cons]
          exact endedLast

/-- Steps under any caps make the firings of one uncapped step of all their ticks, in its order:
all of them and with its clock in the end, unless the last of them was deferred. -/
theorem stepsFollowUncapped {steps : List Step} (normalized : c.Normalized)
    (fits : c.owed.toNat + Step.ticks steps < UInt64.size)
    (room : c.total + Step.ticks steps + longestPeriod c.timers < Ticks.range) :
    ∃ outcomes d log fired finish whole,
      c.takeSteps [] steps = .ok (outcomes, d, log) ∧ outcomes.length = steps.length ∧
      (c.setCpuUsage .max).advance .record [] (Step.ticks steps).toUInt64 = .ok (⟨fired, false⟩, finish, whole) ∧
      d.total = c.total + Step.ticks steps ∧
      ∀ step last, steps.getLast? = some step → outcomes.getLast? = some last →
        (last.deferred = false → log = whole ∧ d.setCpuUsage .max = finish ∧ d.owed = 0) ∧
        (last.deferred = true → (∃ later, later ≠ [] ∧ whole = later ++ log) ∧
          step.usage.cap? = some last.fired) := by
  have ready := readyOf normalized.timers room
  have inRange : c.total + Step.ticks steps < Ticks.range := by omega
  have delta : (Step.ticks steps).toUInt64.toNat = Step.ticks steps :=
    Nat.mod_eq_of_lt (Nat.lt_of_le_of_lt (Nat.le_add_left _ _) fits)
  obtain ⟨outcomes, strikes, d, taken, count, moved, ended⟩ :=
    stepsMove normalized.current ready (Nat.le_refl _) inRange fits []
  obtain ⟨⟨fired, deferred⟩, all, finish, once, wholeMoved, wholeEnded⟩ :=
    stepMoves .max (Step.ticks steps).toUInt64 normalized.current ready (by omega) inRange (by omega) []
  rw [delta] at wholeMoved
  have sameTotal : finish.total = d.total := wholeMoved.total.trans moved.total.symm
  cases deferred with
  | true => cases wholeEnded.ends.1
  | false =>
    -- Both follow the same matches, and the uncapped step all of them, so one log begins the other.
    have nothing : NothingDue d.total finish.timers := sameTotal ▸ wholeEnded.ends
    obtain ⟨later, joined, tail⟩ := strikesPrefix moved.struck moved.due wholeMoved.struck nothing
    refine ⟨outcomes, d, _, fired, finish, _, taken, count, once, moved.total, ?_⟩
    intro step last lastStep lastOutcome
    have endedLast := ended step last lastStep lastOutcome
    have ends := endedLast.ends
    constructor
    · intro kept
      rw [kept] at ends
      have within : ∀ s ∈ later, s.instant.get ≤ d.total := by
        intro s member
        rw [← sameTotal]
        exact wholeMoved.due s (joined ▸ List.mem_append_right _ member)
      obtain ⟨none, sameTimers⟩ := strikesOver tail within ends
      rw [none, List.append_nil] at joined
      have paid := endedLast.paid kept
      have sameClock := moved.agree wholeMoved sameTimers ((wholeEnded.paid rfl).trans paid.symm)
      rw [wholeEnded.sameUsage] at sameClock
      exact ⟨by rw [joined], sameClock, paid⟩
    · intro capped
      rw [capped] at ends
      refine ⟨⟨(later.map Strike.firing).reverse, ?_, ?_⟩, ends.1⟩
      · intro none
        rw [List.reverse_eq_nil_iff, List.map_eq_nil_iff] at none
        rw [none] at tail
        rw [strikesNone tail] at nothing
        exact ends.2 nothing
      · rw [joined, List.map_append, List.reverse_append, List.append_nil, List.append_nil]

end

theorem cappedStepsCaughtUp :
    let timers : List (TimerId × Timer) :=
      [(⟨0⟩, ⟨true, 1, 1, 1, ⟨0, 1⟩, 0⟩), (⟨1⟩, ⟨true, 7, 1, 7, ⟨0, 3⟩, 0⟩)]
    let c : Clock := { Clock.fresh with timers, owed := 5 }
    let steps : List Step := [⟨.low, 1500⟩, ⟨.normal, 0⟩, ⟨.max, 400⟩]
    c.Normalized ∧ c.owed.toNat + Step.ticks steps < UInt64.size ∧
      c.total + Step.ticks steps + longestPeriod c.timers < Ticks.range ∧
      ∃ outcomes d log fired, c.takeSteps [] steps = .ok (outcomes, d, log) ∧
        (c.setCpuUsage .max).advance .record [] 1900 = .ok (⟨fired, false⟩, d.setCpuUsage .max, log) ∧
        d.owed = 0 := by
  intro timers c steps
  have normalized : c.Normalized := ⟨by decide, by decide⟩
  have fits : c.owed.toNat + Step.ticks steps < UInt64.size := by decide
  have room : c.total + Step.ticks steps + longestPeriod c.timers < Ticks.range := by decide
  obtain ⟨outcomes, d, log, fired, finish, whole, taken, count, once, _, ended⟩ :=
    stepsFollowUncapped normalized fits room
  have nonempty : outcomes ≠ [] := List.ne_nil_of_length_pos (by rw [count]; decide)
  obtain ⟨kept, capped⟩ := ended ⟨.max, 400⟩ _ rfl (List.getLast?_eq_some_getLast nonempty)
  have all : (outcomes.getLast nonempty).deferred = false := by
    cases deferred : (outcomes.getLast nonempty).deferred with
    | false => rfl
    | true => cases (capped deferred).2
  obtain ⟨sameLog, sameClock, paid⟩ := kept all
  rw [← sameLog, ← sameClock] at once
  exact ⟨normalized, fits, room, outcomes, d, log, fired, taken, once, paid⟩

end RobotLink.Clock
