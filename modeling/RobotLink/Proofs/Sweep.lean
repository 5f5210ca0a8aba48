import RobotLink.Proofs.Strikes

/-! Sweeps to a target. A sweep makes the calls of the matches in order and ends where nothing
more is due or its cap is reached. Its matches and its end are the same for every callback, so
a step of the clock is the calls of its matches and an outcome known beforehand. -/
namespace RobotLink
variable {World : Type}

def Callback.serve (callback : Callback World) : List Clock.Strike → World → Except Fault World
  | [], world => .ok world
  | s :: rest, world =>
    match callback s.timer s.instant world with
    | .ok world => Callback.serve callback rest world
    | .error f => .error f

def Clock.Strike.firing (s : Strike) : Firing := ⟨s.timer, s.instant⟩

theorem Callback.serveRecord (strikes : List Clock.Strike) (log : List Firing) :
    Callback.serve Callback.record strikes log = .ok ((strikes.map Clock.Strike.firing).reverse ++ log) := by
  induction strikes generalizing log with
  | nil => rfl
  | cons s rest ih =>
    rw [serve]
    simp only [record, ih, List.map_cons, List.reverse_cons, List.append_assoc]
    rfl

def Callback.Returns (callback : Callback World) : Prop :=
  ∀ timer instant world, ∃ next, callback timer instant world = .ok next

theorem Callback.recordReturns : Callback.record.Returns := fun _ _ _ => ⟨_, rfl⟩

theorem Callback.Returns.serve {callback : Callback World} (returns : callback.Returns)
    (strikes : List Clock.Strike) (world : World) : ∃ last, callback.serve strikes world = .ok last := by
  induction strikes generalizing world with
  | nil => exact ⟨world, rfl⟩
  | cons s rest ih =>
    obtain ⟨next, called⟩ := returns s.timer s.instant world
    rw [Callback.serve]
    simp only [called]
    exact ih next

namespace Clock

def latest (current : Ticks) : List Strike → Ticks
  | [] => current
  | s :: rest => latest (if current < s.instant then s.instant else current) rest

theorem latestMeets {target current : Ticks} {strikes : List Strike} (exact : current.Normalized)
    (instants : ∀ s ∈ strikes, s.instant.Normalized) (due : ∀ s ∈ strikes, s.instant.get ≤ target.get)
    (ahead : current.get ≤ target.get) :
    (latest current strikes).Normalized ∧ current.get ≤ (latest current strikes).get ∧
      (latest current strikes).get ≤ target.get := by
  induction strikes generalizing current with
  | nil => exact ⟨exact, Nat.le_refl _, ahead⟩
  | cons s rest ih =>
    have own := instants s List.mem_cons_self
    have order := Ticks.ltGet exact own
    have others := fun r member => instants r (List.mem_cons_of_mem s member)
    have dueOthers := fun r member => due r (List.mem_cons_of_mem s member)
    rw [latest]
    split
    next later =>
      obtain ⟨normalized, grown, within⟩ := ih own others dueOthers (due s List.mem_cons_self)
      exact ⟨normalized, Nat.le_trans (Nat.le_of_lt (order.1 later)) grown, within⟩
    next => exact ih exact others dueOthers ahead

structure Ready (bound : Nat) (timers : List (TimerId × Timer)) : Prop where
  normalized : ∀ entry ∈ timers, entry.2.nextMatch.Normalized
  room : ∀ entry ∈ timers, entry.2.schedulable → bound + entry.2.period.toNat < Ticks.range

def longestPeriod : List (TimerId × Timer) → Nat
  | [] => 0
  | (_, t) :: rest =>
    if t.schedulable ∧ longestPeriod rest < t.period.toNat then t.period.toNat else longestPeriod rest

theorem periodLeLongest {timers : List (TimerId × Timer)} {entry : TimerId × Timer} (member : entry ∈ timers)
    (schedulable : entry.2.schedulable) : entry.2.period.toNat ≤ longestPeriod timers := by
  induction timers with
  | nil => cases member
  | cons head rest ih =>
    unfold longestPeriod
    rcases List.mem_cons.1 member with rfl | member
    · split
      next => exact Nat.le_refl _
      next shorter => exact Nat.le_of_not_lt fun longer => shorter ⟨schedulable, longer⟩
    · have bound := ih member
      split
      next longer => exact Nat.le_trans bound (Nat.le_of_lt longer.2)
      next => exact bound

theorem readyOf {timers : List (TimerId × Timer)} {bound : Nat}
    (normalized : ∀ entry ∈ timers, entry.2.nextMatch.Normalized)
    (room : bound + longestPeriod timers < Ticks.range) : Ready bound timers := by
  refine ⟨normalized, ?_⟩
  intro entry member schedulable
  have period := periodLeLongest member schedulable
  omega

def EndsAt (target : Nat) (cap : Option Nat) (timers : List (TimerId × Timer)) (fired : Nat) : Bool → Prop
  | false => NothingDue target timers
  | true => cap = some fired ∧ ¬ NothingDue target timers

section
variable {target : Ticks} {bound : Nat} {cap : Option Nat} {timers : List (TimerId × Timer)}
  {i : Nat} {id : TimerId} {t : Timer}

theorem Ready.next (ready : Ready bound timers) (found : earliest? timers = some (i, id, t))
    (due : t.nextMatch.get ≤ bound) :
    ∃ u, t.countMatch.rearm = .ok u ∧ Ready bound (timers.set i (id, u)) := by
  obtain ⟨place, schedulable⟩ := earliestAt found
  have member := List.mem_of_getElem? place
  have exact : t.nextMatch.Normalized := ready.normalized (id, t) member
  have room : bound + t.period.toNat < Ticks.range := ready.room (id, t) member schedulable
  obtain ⟨next, sum, _⟩ := Ticks.addCountMeets exact (n := t.period) (by omega)
  have rearmed : t.countMatch.rearm = .ok { t.countMatch with nextMatch := next } := by
    rw [Timer.rearm]
    simp only [Timer.countMatch, sum]
    rfl
  refine ⟨_, rearmed, normalizedSet ready.normalized rearmed, ?_⟩
  intro entry changed takesPart
  rcases List.mem_or_eq_of_mem_set changed with kept | rfl
  · exact ready.room entry kept takesPart
  · exact room

theorem nothingDueNone (none : earliest? timers = none) : NothingDue target.get timers :=
  fun entry member schedulable => absurd schedulable (earliestNone none entry member)

theorem nothingDueLater (ready : Ready bound timers) (found : earliest? timers = some (i, id, t))
    (later : target.get < t.nextMatch.get) : NothingDue target.get timers := by
  intro entry member schedulable
  obtain ⟨j, place⟩ := List.getElem?_of_mem member
  have order := earliestLeast found ready.normalized place schedulable
  omega

theorem Sweep.runNext (callback : Callback World) (target : Ticks) (cap : Option Nat) (s : Sweep World) :
    s.run callback target cap =
      match s.next callback target cap with
      | .error f => .error f
      | .ok .finished => .ok (s, false)
      | .ok .capped => .ok (s, true)
      | .ok (.fired n) => n.run callback target cap := by
  rw [Sweep.run]
  split <;> simp only [*]

inductive Sweep.Goes (bound : Nat) (target : Ticks) (cap : Option Nat) (timers : List (TimerId × Timer))
    (fired : Nat) : Prop
  | ends {capped : Bool} (ends : EndsAt target.get cap timers fired capped)
      (same : ∀ {World : Type} (callback : Callback World) (current : Ticks) (world : World),
        Sweep.run callback target cap ⟨current, timers, fired, world⟩ =
          .ok (⟨current, timers, fired, world⟩, capped)) : Sweep.Goes bound target cap timers fired
  | fires {i : Nat} {id : TimerId} {t u : Timer} (found : earliest? timers = some (i, id, t))
      (due : t.nextMatch.get ≤ target.get) (rearmed : t.countMatch.rearm = .ok u)
      (ready : Ready bound (timers.set i (id, u))) (belowCap : ∀ n, cap = some n → fired + 1 ≤ n)
      (less : totalSlack target (timers.set i (id, u)) < totalSlack target timers)
      (same : ∀ {World : Type} (callback : Callback World) (current : Ticks) (world : World),
        Sweep.run callback target cap ⟨current, timers, fired, world⟩ =
          match callback id t.nextMatch world with
          | .ok world =>
            Sweep.run callback target cap
              ⟨if current < t.nextMatch then t.nextMatch else current, timers.set i (id, u), fired + 1, world⟩
          | .error f => .error f) : Sweep.Goes bound target cap timers fired

theorem Sweep.goes (exact : target.Normalized) (ready : Ready bound timers) (inside : target.get ≤ bound)
    {fired : Nat} (within : ∀ n, cap = some n → fired ≤ n) : Sweep.Goes bound target cap timers fired := by
  cases found : earliest? timers with
  | none =>
    have ends : EndsAt target.get cap timers fired false := nothingDueNone found
    refine .ends ends ?_
    intro World callback current world
    rw [Sweep.runNext, Sweep.next]
    simp only [found]
  | some first =>
    obtain ⟨i, id, t⟩ := first
    obtain ⟨place, schedulable⟩ := earliestAt found
    have order : t.nextMatch ≤ target ↔ t.nextMatch.get ≤ target.get :=
      Ticks.leGet (ready.normalized (id, t) (List.mem_of_getElem? place)) exact
    by_cases due : t.nextMatch ≤ target
    · by_cases full : cap.any (· ≤ fired)
      · obtain ⟨n, limit, reached⟩ := (Option.any_eq_true _ _).1 full
        have atCap : fired = n := Nat.le_antisymm (within n limit) (of_decide_eq_true reached)
        have ends : EndsAt target.get cap timers fired true :=
          ⟨limit.trans (by rw [atCap]), somethingDue found (order.1 due)⟩
        refine .ends ends ?_
        intro World callback current world
        rw [Sweep.runNext, Sweep.next]
        simp only [found, due, full, not_true, if_false, if_true]
      · obtain ⟨u, rearmed, readyNext⟩ := ready.next found (Nat.le_trans (order.1 due) inside)
        have less := totalSlackSet (slackRearm schedulable due rearmed) timers i place
        refine .fires found (order.1 due) rearmed readyNext ?_ less ?_
        · intro n limit
          rw [limit, Option.any_some, decide_eq_true_eq] at full
          omega
        · intro World callback current world
          rw [Sweep.runNext, Sweep.next]
          simp only [found, due, not_true, if_false, full, rearmed]
          cases callback id t.nextMatch world <;> rfl
    · have late : target.get < t.nextMatch.get := Nat.lt_of_not_le (mt order.2 due)
      have ends : EndsAt target.get cap timers fired false := nothingDueLater ready found late
      refine .ends ends ?_
      intro World callback current world
      rw [Sweep.runNext, Sweep.next]
      simp only [found, due, not_false_eq_true, if_true]

theorem sweepMeets (exact : target.Normalized) (ready : Ready bound timers) (inside : target.get ≤ bound)
    {fired : Nat} (within : ∀ n, cap = some n → fired ≤ n) :
    ∃ strikes after capped, Strikes timers strikes after ∧ Ready bound after ∧
      (∀ s ∈ strikes, s.instant.get ≤ target.get) ∧
      EndsAt target.get cap after (fired + strikes.length) capped ∧
      ∀ {World : Type} (callback : Callback World) (current : Ticks) (world : World),
        Sweep.run callback target cap ⟨current, timers, fired, world⟩ =
          (callback.serve strikes world).map fun world =>
            (⟨latest current strikes, after, fired + strikes.length, world⟩, capped) := by
  -- The matches are found before there is a callback, so they cannot depend on what one does.
  induction size : totalSlack target timers using Nat.strongRecOn generalizing timers fired with
  | ind size ih =>
    cases Sweep.goes exact ready inside within with
    | ends ends same => exact ⟨[], timers, _, .none timers, ready, by simp, ends, same⟩
    | fires found due rearmed readyNext belowCap less same =>
      obtain ⟨strikes, after, capped, struck, left, early, ends, onward⟩ :=
        ih _ (size ▸ less) readyNext belowCap rfl
      have count : fired + 1 + strikes.length = fired + (strikes.length + 1) := by omega
      rw [count] at ends onward
      refine ⟨_, after, capped, .next found rearmed struck, left, ?_, ends, ?_⟩
      · intro s member
        rcases List.mem_cons.1 member with rfl | member
        · exact due
        · exact early s member
      · intro World callback current world
        rw [same, Callback.serve]
        split
        next next called =>
          rw [called]
          exact onward callback _ next
        next f called =>
          rw [called]
          rfl

end

structure Normalized (c : Clock) : Prop where
  current : c.current.Normalized
  timers : ∀ entry ∈ c.timers, entry.2.nextMatch.Normalized

def total (c : Clock) : Nat := c.current.get + c.owed.toNat

def atEnd (c : Clock) (target : Ticks) (strikes : List Strike) (after : List (TimerId × Timer)) : Bool → Clock
  | false => { c with current := target, timers := after, owed := 0 }
  | true =>
    { c with
      current := latest c.current strikes, timers := after
      owed := clampWord (target.get - (latest c.current strikes).get) }

theorem targetMeets {c : Clock} (delta : UInt64) (exact : c.current.Normalized)
    (inRange : c.total + delta.toNat < Ticks.range) :
    ∃ middle target, c.current.addCount c.owed = .ok middle ∧ middle.addCount delta = .ok target ∧
      target.Normalized ∧ target.get = c.total + delta.toNat := by
  unfold total at inRange ⊢
  obtain ⟨middle, first, normalized, sum⟩ := Ticks.addCountMeets exact (n := c.owed) (by omega)
  obtain ⟨target, second, targetNormalized, whole⟩ := Ticks.addCountMeets normalized (n := delta) (by omega)
  exact ⟨middle, target, first, second, targetNormalized, by omega⟩

theorem advanceMeets {c : Clock} {delta : UInt64} {bound : Nat} (exact : c.current.Normalized)
    (ready : Ready bound c.timers) (inside : c.total + delta.toNat ≤ bound) (inRange : bound < Ticks.range) :
    ∃ target strikes after capped, target.Normalized ∧ target.get = c.total + delta.toNat ∧
      Strikes c.timers strikes after ∧ Ready bound after ∧ (∀ s ∈ strikes, s.instant.get ≤ target.get) ∧
      EndsAt target.get c.cpuUsage.cap? after strikes.length capped ∧
      ∀ {World : Type} (callback : Callback World) (world : World),
        c.advance callback world delta = (callback.serve strikes world).map fun world =>
          (⟨strikes.length, capped⟩, c.atEnd target strikes after capped, world) := by
  obtain ⟨middle, target, first, second, normalized, sum⟩ :=
    targetMeets delta exact (Nat.lt_of_le_of_lt inside inRange)
  have within : ∀ n, c.cpuUsage.cap? = some n → 0 ≤ n := fun n _ => Nat.zero_le n
  obtain ⟨strikes, after, capped, struck, left, early, ends, same⟩ :=
    sweepMeets normalized ready (by omega) within
  rw [Nat.zero_add] at ends same
  refine ⟨target, strikes, after, capped, normalized, sum, struck, left, early, ends, ?_⟩
  intro World callback world
  obtain ⟨instants, _⟩ := strikesNormalized struck ready.normalized
  have ahead : c.current.get ≤ target.get := by
    rw [sum, total]
    omega
  obtain ⟨currentNormalized, _, notAhead⟩ := latestMeets exact instants early ahead
  obtain ⟨d, difference, _, distance⟩ := Ticks.saturatingSubMeets normalized currentNormalized notAhead
  have owed : d.getWord = clampWord (target.get - (latest c.current strikes).get) := by
    rw [← distance, Nat.add_sub_cancel]
    rfl
  unfold advance
  simp only [first, second, bind, Except.bind, same]
  cases callback.serve strikes world with
  | error f => rfl
  | ok world =>
    cases capped with
    | false => rfl
    | true =>
      simp only [Except.map, if_true, difference, owed]
      rfl

theorem advanceReturns {callback : Callback World} {c : Clock} {delta : UInt64} {bound : Nat}
    (returns : callback.Returns) (exact : c.current.Normalized) (ready : Ready bound c.timers)
    (inside : c.total + delta.toNat ≤ bound) (inRange : bound < Ticks.range) (world : World) :
    ∃ outcome d later, c.advance callback world delta = .ok (outcome, d, later) ∧ Ready bound d.timers := by
  obtain ⟨target, strikes, after, capped, _, _, _, left, _, _, same⟩ := advanceMeets exact ready inside inRange
  obtain ⟨last, served⟩ := returns.serve strikes world
  refine ⟨⟨strikes.length, capped⟩, c.atEnd target strikes after capped, last, ?_, ?_⟩
  · rw [same, served]
    rfl
  · cases capped <;> exact left

end Clock

end RobotLink
