import RobotLink.Proofs.Sweep

/-! What a sweep, an advance and a step of wall time have done when they return. A sweep is a run of
matches, so what one match preserves the whole of it does; an advance is a sweep to all the ticks
given so far, and a step that turns wall time into ticks is an advance by them. -/
namespace RobotLink

section
variable {ε α β γ : Type} {x : Except ε α} {b : β}

theorem mapOk {f : α → β} (h : x.map f = .ok b) : ∃ a, x = .ok a ∧ f a = b := by
  cases x with
  | error e => cases h
  | ok a => cases h; exact ⟨a, rfl, rfl⟩

theorem bindOk {f : α → Except ε β} (h : x >>= f = .ok b) : ∃ a, x = .ok a ∧ f a = .ok b := by
  cases x with
  | error e => cases h
  | ok a => exact ⟨a, rfl, h⟩

theorem okBind (a : α) (f : α → Except ε β) : (Except.ok a >>= f) = f a := rfl

theorem mapError {f : α → β} {e : ε} (h : x.map f = .error e) : x = .error e := by
  cases x with
  | error other => cases h; rfl
  | ok a => cases h

theorem mapThen (x : Except ε α) (f : α → β) (g : β → γ) : (x.map f).map g = x.map (g ∘ f) :=
  Functor.map_map f g x

theorem mapBind (x : Except ε α) (f : α → Except ε β) (g : β → γ) :
    (x >>= f).map g = x >>= fun a => (f a).map g :=
  map_bind g x f

theorem foldKeeps {f : β → α → Except ε β} {P : β → Prop} (keeps : ∀ b a next, P b → f b a = .ok next → P next)
    {as : List α} {last : β} (start : P b) (folded : as.foldlM f b = .ok last) : P last := by
  induction as generalizing b with
  | nil => cases folded; exact start
  | cons a rest ih =>
    rw [List.foldlM_cons] at folded
    obtain ⟨next, first, onward⟩ := bindOk folded
    exact ih (keeps b a next start first) onward

theorem bindAgree {y : Except ε α} {f g : α → Except ε β} {view : α → γ} (same : x.map view = y.map view)
    (next : ∀ a b, view a = view b → f a = g b) : x >>= f = y >>= g := by
  cases x with
  | error e =>
    rw [mapError same.symm]
    rfl
  | ok a =>
    obtain ⟨b, there, alike⟩ := mapOk same.symm
    rw [there]
    exact next a b alike.symm

end

theorem addWideOk {a b n : Nat} (h : addWide a b = .ok n) : n = a + b := by
  unfold addWide at h
  split at h
  · cases h; rfl
  · cases h

theorem mulWideOk {a b n : Nat} (h : mulWide a b = .ok n) : n = a * b := by
  unfold mulWide at h
  split at h
  · cases h; rfl
  · cases h

theorem Ticks.addCountOk {now next : Ticks} {n : UInt64} (h : now.addCount n = .ok next) :
    next.Normalized ∧ next.get = now.get + n.toNat :=
  ⟨addNormalized h, getAddCount h⟩

namespace Clock
variable {World : Type} {callback : Callback World} {c d : Clock} {world later : World}

structure Sweep.Serves (callback : Callback World) (target : Ticks) (cap : Option Nat) (s n : Sweep World)
    (i : Nat) (id : TimerId) (t u : Timer) : Prop where
  found : earliest? s.timers = some (i, id, t)
  due : t.nextMatch ≤ target
  belowCap : ∀ limit, cap = some limit → s.fired < limit
  called : callback id t.nextMatch s.world = .ok n.world
  rearmed : t.countMatch.rearm = .ok u
  current : n.current = if s.current < t.nextMatch then t.nextMatch else s.current
  timers : n.timers = s.timers.set i (id, u)
  fired : n.fired = s.fired + 1

section
variable {target : Ticks} {cap : Option Nat} {s n : Sweep World} {i : Nat} {id : TimerId} {t u : Timer}

theorem Sweep.Serves.member (serves : s.Serves callback target cap n i id t u) : (id, t) ∈ s.timers :=
  List.mem_of_getElem? (earliestAt serves.found).1

theorem Sweep.Serves.takesPart (serves : s.Serves callback target cap n i id t u) : t.schedulable :=
  (earliestAt serves.found).2

theorem Sweep.Serves.left (serves : s.Serves callback target cap n i id t u) : (id, u) ∈ n.timers := by
  rw [serves.timers]
  exact List.mem_of_getElem? (rearmedAt serves.found)

theorem Sweep.Serves.entries (serves : s.Serves callback target cap n i id t u) :
    ∀ entry ∈ n.timers, entry ∈ s.timers ∨ entry = (id, u) := by
  intro entry member
  rw [serves.timers] at member
  exact List.mem_or_eq_of_mem_set member

theorem Sweep.nextServes (h : s.next callback target cap = .ok (.fired n)) :
    ∃ i id t u, s.Serves callback target cap n i id t u := by
  unfold Sweep.next at h
  split at h
  next => cases h
  next i id t found =>
    split at h
    next => cases h
    next due =>
      split at h
      next => cases h
      next below =>
        split at h
        next called rearmed =>
          cases h
          refine ⟨i, id, t, _, found, Decidable.not_not.1 due, fun limit same => ?_, called, rearmed, rfl, rfl, rfl⟩
          rw [same, Option.any_some, decide_eq_true_eq] at below
          omega
        next => cases h
        next => cases h

end

theorem Sweep.runKeeps {target : Ticks} {cap : Option Nat} {P : Sweep World → Prop} {s last : Sweep World}
    {capped : Bool} (h : s.run callback target cap = .ok (last, capped)) (start : P s)
    (keeps : ∀ {m n i id t u}, P m → m.Serves callback target cap n i id t u → P n) : P last := by
  fun_induction Sweep.run callback target cap s with
  | case1 s f next => cases h
  | case2 s next | case3 s next => cases h; exact start
  | case4 s n next ih =>
    obtain ⟨i, id, t, u, serves⟩ := Sweep.nextServes next
    exact ih h (keeps start serves)

theorem Sweep.runEnds {target : Ticks} {cap : Option Nat} {s last : Sweep World} {capped : Bool}
    (h : s.run callback target cap = .ok (last, capped)) :
    last.next callback target cap = .ok (if capped then .capped else .finished) := by
  fun_induction Sweep.run callback target cap s with
  | case1 s f next => cases h
  | case2 s next | case3 s next => cases h; exact next
  | case4 s n next ih => exact ih h

theorem Sweep.runStrikes {target : Ticks} {cap : Option Nat} {s last : Sweep World} {capped : Bool}
    (h : s.run callback target cap = .ok (last, capped)) : ∃ strikes, Strikes s.timers strikes last.timers := by
  refine Sweep.runKeeps h ⟨[], .none _⟩ ?_ (P := fun m => ∃ strikes, Strikes s.timers strikes m.timers)
  rintro m n i id t u ⟨strikes, struck⟩ serves
  rw [serves.timers]
  exact ⟨_, strikesAppend struck (.next serves.found serves.rearmed (.none _))⟩

structure Swept (callback : Callback World) (c : Clock) (world : World) (delta : UInt64) (outcome : Advanced)
    (d : Clock) (later : World) (target : Ticks) (last : Sweep World) : Prop where
  exact : target.Normalized
  sum : target.get = c.total + delta.toNat
  run : Sweep.run callback target c.cpuUsage.cap? ⟨c.current, c.timers, 0, world⟩ =
    .ok (last, outcome.deferred)
  fired : outcome.fired = last.fired
  settings : d = { c with current := d.current, timers := last.timers, owed := d.owed }
  called : later = last.world
  finished : outcome.deferred = false → d.current = target ∧ d.owed = 0
  deferred : outcome.deferred = true → d.current = last.current ∧
    ∃ gap, target.saturatingSub last.current = .ok gap ∧ d.owed = gap.getWord

theorem Swept.timers {delta : UInt64} {outcome : Advanced} {target : Ticks} {last : Sweep World}
    (swept : Swept callback c world delta outcome d later target last) : d.timers = last.timers := by
  rw [swept.settings]

theorem advanceSwept {delta : UInt64} {outcome : Advanced}
    (h : c.advance callback world delta = .ok (outcome, d, later)) :
    ∃ target last, Swept callback c world delta outcome d later target last := by
  obtain ⟨middle, first, h⟩ := bindOk h
  obtain ⟨target, second, h⟩ := bindOk h
  obtain ⟨⟨last, capped⟩, swept, h⟩ := bindOk h
  obtain ⟨_, middleSum⟩ := Ticks.addCountOk first
  obtain ⟨exact, sum⟩ := Ticks.addCountOk second
  rw [middleSum] at sum
  cases capped with
  | true =>
    obtain ⟨gap, distance, same⟩ := bindOk h
    cases same
    exact ⟨target, last, exact, sum, swept, rfl, rfl, rfl, nofun, fun _ => ⟨rfl, gap, distance, rfl⟩⟩
  | false =>
    cases h
    exact ⟨target, last, exact, sum, swept, rfl, rfl, rfl, fun _ => ⟨rfl, rfl⟩, nofun⟩

section
variable {P : Ticks → Prop} {current : Ticks} {timers : List (TimerId × Timer)}

def instants (current : Ticks) (timers : List (TimerId × Timer)) : List Ticks :=
  current :: timers.map (·.2.nextMatch)

theorem instantsAll :
    (∀ t ∈ instants current timers, P t) ↔ P current ∧ ∀ entry ∈ timers, P entry.2.nextMatch := by
  rw [instants, List.forall_mem_cons, List.forall_mem_map]

theorem servedInstants (normalized : ∀ t : Ticks, t.Normalized → P t) {target : Ticks} {cap : Option Nat}
    {s n : Sweep World} {i : Nat} {id : TimerId} {t u : Timer} (serves : s.Serves callback target cap n i id t u)
    (before : ∀ t ∈ instants s.current s.timers, P t) : ∀ t ∈ instants n.current n.timers, P t := by
  obtain ⟨now, next⟩ := instantsAll.1 before
  refine instantsAll.2 ⟨?_, fun entry member => ?_⟩
  · rw [serves.current]
    split
    · exact next _ serves.member
    · exact now
  · rcases serves.entries entry member with old | rfl
    · exact next entry old
    · obtain ⟨_, rfl, exact, _⟩ := Timer.rearmMeets serves.rearmed
      exact normalized _ exact

theorem advancedInstants (normalized : ∀ t : Ticks, t.Normalized → P t) {delta : UInt64} {outcome : Advanced}
    (h : c.advance callback world delta = .ok (outcome, d, later))
    (before : ∀ t ∈ instants c.current c.timers, P t) : ∀ t ∈ instants d.current d.timers, P t := by
  obtain ⟨target, last, swept⟩ := advanceSwept h
  have left := Sweep.runKeeps swept.run (P := fun m => ∀ t ∈ instants m.current m.timers, P t) before
    fun kept serves => servedInstants normalized serves kept
  obtain ⟨now, next⟩ := instantsAll.1 left
  rw [swept.timers]
  refine instantsAll.2 ⟨?_, next⟩
  cases capped : outcome.deferred with
  | true => exact (swept.deferred capped).1 ▸ now
  | false => exact (swept.finished capped).1 ▸ normalized _ swept.exact

end

theorem Normalized.advanced {delta : UInt64} {outcome : Advanced} (normalized : c.Normalized)
    (h : c.advance callback world delta = .ok (outcome, d, later)) : d.Normalized := by
  obtain ⟨current, timers⟩ := instantsAll.1 (advancedInstants (fun _ exact => exact) h
    (instantsAll.2 ⟨normalized.current, normalized.timers⟩))
  exact ⟨current, timers⟩

theorem advanceOk {delta : UInt64} {outcome : Advanced} (h : c.advance callback world delta = .ok (outcome, d, later)) :
    (∃ strikes, Strikes c.timers strikes d.timers) ∧ d.nextId = c.nextId := by
  obtain ⟨target, last, swept⟩ := advanceSwept h
  exact ⟨swept.timers ▸ Sweep.runStrikes swept.run, by rw [swept.settings]⟩

def timeSince (c : Clock) (last now : Nat) : Nat := c.targetSpeed.toNat * (now - last) + c.tickFraction

def ticksSince (c : Clock) (last now : Nat) : UInt64 := clampWord (c.timeSince last now / nanosPerSecond)

def stepped (c : Clock) (last now : Nat) : Clock :=
  { c with lastStep := some now, tickFraction := c.timeSince last now % nanosPerSecond }

structure StepsBy (callback : Callback World) (c : Clock) (world : World) (last now : Nat)
    (summary : StepSummary) (d : Clock) (later : World) (outcome : Advanced) (after : Clock) : Prop where
  advance : (c.stepped last now).advance callback world (c.ticksSince last now) = .ok (outcome, after, later)
  record : after.stats.record (clampWord ((now - last) / 1000)) outcome.fired.toUInt64 (c.ticksSince last now) =
    .ok (summary.speed, d.stats)
  clock : d = { after with stats := d.stats }
  summary : summary = ⟨outcome.fired, c.ticksSince last now, outcome.deferred, summary.speed⟩

theorem stepAdvances {last now : Nat} {summary : StepSummary} (running : c.state = .running)
    (reference : c.lastStep = some last) (h : c.step callback world now = .ok (summary, d, later)) :
    ∃ outcome after, StepsBy callback c world last now summary d later outcome after := by
  unfold step at h
  rw [if_neg (by simpa using running), reference] at h
  obtain ⟨product, multiplied, h⟩ := bindOk h
  obtain ⟨scaled, added, h⟩ := bindOk h
  obtain ⟨⟨outcome, after, _⟩, advanced, h⟩ := bindOk h
  obtain ⟨⟨speed, stats⟩, recorded, same⟩ := bindOk h
  cases same
  have time : scaled = c.timeSince last now := by rw [addWideOk added, mulWideOk multiplied, timeSince]
  rw [time] at advanced recorded ⊢
  exact ⟨outcome, after, advanced, recorded, rfl, rfl⟩

theorem stepCases {now : Nat} {summary : StepSummary} (h : c.step callback world now = .ok (summary, d, later)) :
    (∃ last outcome after, StepsBy callback c world last now summary d later outcome after) ∨
      summary = .idle ∧ later = world ∧ (d = c ∨ d = { c with lastStep := some now }) := by
  by_cases running : c.state = .running
  · cases reference : c.lastStep with
    | some last => exact .inl ⟨last, stepAdvances running reference h⟩
    | none =>
      unfold step at h
      rw [if_neg (by simpa using running), reference] at h
      cases h
      exact .inr ⟨rfl, rfl, .inr rfl⟩
  · unfold step at h
    rw [if_pos running] at h
    cases h
    exact .inr ⟨rfl, rfl, .inl rfl⟩

theorem stepOk {now : Nat} {summary : StepSummary} (h : c.step callback world now = .ok (summary, d, later)) :
    (∃ strikes, Strikes c.timers strikes d.timers) ∧ d.nextId = c.nextId := by
  obtain ⟨last, outcome, after, steps⟩ | ⟨_, _, rfl | rfl⟩ := stepCases h
  · have moved := advanceOk steps.advance
    rw [steps.clock]
    exact moved
  · exact ⟨⟨[], .none _⟩, rfl⟩
  · exact ⟨⟨[], .none _⟩, rfl⟩

end Clock

end RobotLink
