import Mathlib
import RobotLink.Proofs.ClockChanges

/-! The phase of timers. As long as no state is loaded, a timer that takes part has its next match
neither before the current tick nor more than a period after it, whatever is set at which instant
and wherever a step stops. So scaling the distance to go never leaves the words it is computed in. -/
namespace RobotLink

namespace Timer

theorem rescaledLe {togo old : Nat} (positive : 0 < old) (within : togo ≤ old) (new : Nat) :
    rescaled togo old new ≤ new := by
  have product := Nat.mul_le_mul_right new within
  apply Nat.le_of_lt_succ
  apply Nat.div_lt_of_lt_mul
  rw [Nat.mul_succ]
  omega

theorem rescaledWhole {old : Nat} (positive : 0 < old) (new : Nat) : rescaled old old new = new := by
  unfold rescaled
  rw [Nat.add_comm, Nat.add_mul_div_left _ _ positive, Nat.div_eq_of_lt (by omega), Nat.zero_add]

structure InPhase (now : Ticks) (t : Timer) : Prop where
  normalized : t.nextMatch.Normalized
  ahead : t.schedulable → now.get ≤ t.nextMatch.get
  within : t.schedulable → t.nextMatch.get ≤ now.get + t.period.toNat

def Whole (now : Ticks) (t : Timer) : Prop := t.schedulable → t.nextMatch.get = now.get + t.period.toNat

section
variable {now togo : Ticks} {t u : Timer}

theorem idleInPhase (exact : t.nextMatch.Normalized) (off : ¬ t.schedulable) : t.InPhase now :=
  ⟨exact, fun on => absurd on off, fun on => absurd on off⟩

theorem wholeInPhase (exact : t.nextMatch.Normalized) (whole : t.Whole now) : t.InPhase now := by
  refine ⟨exact, fun on => ?_, fun on => ?_⟩
  · have next := whole on
    omega
  · exact Nat.le_of_eq (whole on)

theorem InPhase.distance (phase : t.InPhase now) (exact : now.Normalized) (on : t.schedulable)
    (distance : t.nextMatch.saturatingSub now = .ok togo) : togo.get + now.get = t.nextMatch.get := by
  have ahead := phase.ahead on
  refine Ticks.saturatingSubOk ?_ distance
  rw [Ticks.ltGet phase.normalized exact]
  omega

theorem InPhase.adjusted (phase : t.InPhase now) (exact : now.Normalized) (adjusted : Adjusted now t u) :
    u.InPhase now := by
  cases adjusted with
  | idle off next =>
    refine idleInPhase ?_ off
    rcases next with same | normalized
    · exact same ▸ phase.normalized
    · exact normalized
  | kept same => exact same ▸ phase
  | whole normalized next => exact wholeInPhase normalized fun _ => next
  | @scaled togo on distance normalized next =>
    have sum := phase.distance exact on distance
    have within := phase.within on
    have inside : togo.get ≤ t.period.toNat := by omega
    have part := rescaledLe ((schedulableIff t).1 on).2 inside u.period.toNat
    rw [clampWordExact (Nat.lt_of_le_of_lt part u.period.toNat_lt)] at next
    exact ⟨normalized, fun _ => by omega, fun _ => by omega⟩

theorem Whole.adjusted (whole : t.Whole now) (phase : t.InPhase now) (exact : now.Normalized)
    (adjusted : Adjusted now t u) : u.Whole now := by
  intro takesPart
  cases adjusted with
  | idle off next => exact absurd takesPart off
  | kept same => exact same ▸ whole (same ▸ takesPart)
  | whole normalized next => exact next
  | @scaled togo on distance normalized next =>
    have sum := phase.distance exact on distance
    have period := whole on
    have all : togo.get = t.period.toNat := by omega
    rw [next, all, rescaledWhole ((schedulableIff t).1 on).2, clampWordExact u.period.toNat_lt]

end

end Timer

namespace Clock
variable {World : Type} {callback : Callback World} {c d : Clock} {world later : World}

structure InPhase (now : Ticks) (timers : List (TimerId × Timer)) : Prop where
  current : now.Normalized
  timers : ∀ entry ∈ timers, entry.2.InPhase now

section
variable {now target : Ticks} {cap : Option Nat} {timers : List (TimerId × Timer)} {s n : Sweep World}
  {i : Nat} {id : TimerId} {t u : Timer}

theorem InPhase.normalized (phase : InPhase now timers) : ∀ entry ∈ timers, entry.2.nextMatch.Normalized :=
  fun entry member => (phase.timers entry member).normalized

theorem rearmedWhole (rearmed : t.countMatch.rearm = .ok u) : u.Whole t.nextMatch := by
  obtain ⟨next, rfl, _, sum⟩ := Timer.rearmMeets rearmed
  exact fun _ => sum

theorem InPhase.instant (phase : InPhase s.current s.timers) (serves : s.Serves callback target cap n i id t u) :
    n.current = t.nextMatch ∧ s.current.get ≤ n.current.get := by
  have own : t.InPhase s.current := phase.timers (id, t) serves.member
  have ahead := own.ahead serves.takesPart
  have same : n.current = t.nextMatch := by
    rw [serves.current]
    split
    · rfl
    next notAfter =>
      rw [Ticks.ltGet phase.current own.normalized] at notAfter
      exact Ticks.getInjective phase.current own.normalized (by omega)
  exact ⟨same, same ▸ ahead⟩

theorem InPhase.served (phase : InPhase s.current s.timers) (serves : s.Serves callback target cap n i id t u) :
    InPhase n.current n.timers := by
  obtain ⟨same, onward⟩ := phase.instant serves
  rw [same] at onward ⊢
  refine ⟨(phase.timers _ serves.member).normalized, fun entry member => ?_⟩
  rcases serves.entries entry member with old | rfl
  · have before := phase.timers entry old
    obtain ⟨j, spot⟩ := List.getElem?_of_mem old
    refine ⟨before.normalized, fun on => ?_, fun on => ?_⟩
    · have order := earliestLeast serves.found phase.normalized spot on
      omega
    · have within := before.within on
      omega
  · rw [serves.timers] at member
    exact Timer.wholeInPhase (normalizedSet phase.normalized serves.rearmed _ member) (rearmedWhole serves.rearmed)

theorem InPhase.onTo (phase : InPhase now timers) (exact : target.Normalized) (notBack : now.get ≤ target.get)
    (nothing : NothingDue target.get timers) : InPhase target timers := by
  refine ⟨exact, fun entry member => ?_⟩
  have before := phase.timers entry member
  refine ⟨before.normalized, fun on => Nat.le_of_lt (nothing entry member on), fun on => ?_⟩
  have within := before.within on
  omega

theorem finishedNothingDue (h : s.next callback target cap = .ok .finished) (exact : target.Normalized)
    (normalized : ∀ entry ∈ s.timers, entry.2.nextMatch.Normalized) : NothingDue target.get s.timers := by
  unfold Sweep.next at h
  split at h
  next none => exact nothingDueNone none
  next i id t found =>
    split at h
    next late =>
      intro entry member on
      obtain ⟨j, place⟩ := List.getElem?_of_mem member
      have order := earliestLeast found normalized place on
      have own : t.nextMatch.Normalized := normalized (id, t) (List.mem_of_getElem? (earliestAt found).1)
      rw [Ticks.leGet own exact] at late
      omega
    next =>
      split at h
      next => cases h
      next => split at h <;> cases h

theorem InPhase.swept {delta : UInt64} {outcome : Advanced} {last : Sweep World}
    (phase : InPhase c.current c.timers) (swept : Swept callback c world delta outcome d later target last) :
    InPhase last.current last.timers ∧ c.current.get ≤ last.current.get ∧ last.current.get ≤ target.get := by
  have start : c.current.get ≤ target.get := by
    rw [swept.sum, total]
    omega
  refine Sweep.runKeeps swept.run ?_ ?_
    (P := fun m => InPhase m.current m.timers ∧ c.current.get ≤ m.current.get ∧ m.current.get ≤ target.get)
  · exact ⟨phase, Nat.le_refl _, start⟩
  · rintro m n i id t u ⟨before, onward, _⟩ serves
    obtain ⟨same, later⟩ := before.instant serves
    have due := serves.due
    rw [Ticks.leGet (before.normalized _ serves.member) swept.exact, ← same] at due
    exact ⟨before.served serves, Nat.le_trans onward later, due⟩

theorem InPhase.advanced {delta : UInt64} {outcome : Advanced} (phase : InPhase c.current c.timers)
    (h : c.advance callback world delta = .ok (outcome, d, later)) :
    InPhase d.current d.timers ∧ c.current.get ≤ d.current.get ∧
      (outcome.deferred = false → NothingDue d.current.get d.timers) := by
  obtain ⟨target, last, swept⟩ := advanceSwept h
  obtain ⟨left, notBack, notBeyond⟩ := phase.swept swept
  rw [swept.timers]
  cases capped : outcome.deferred with
  | true =>
    rw [(swept.deferred capped).1]
    exact ⟨left, notBack, nofun⟩
  | false =>
    have finished := Sweep.runEnds swept.run
    rw [capped] at finished
    rw [(swept.finished capped).1]
    have nothing := finishedNothingDue finished swept.exact left.normalized
    exact ⟨left.onTo swept.exact notBeyond nothing, Nat.le_trans notBack notBeyond, fun _ => nothing⟩

theorem InPhase.changed {ticks : Nat} (phase : InPhase c.current c.timers)
    (change : Change callback c world ticks d later) :
    InPhase d.current d.timers ∧ c.current.get ≤ d.current.get := by
  cases change with
  | still current owed entries =>
    rw [current]
    refine ⟨⟨phase.current, fun entry member => ?_⟩, Nat.le_refl _⟩
    obtain new | ⟨t, old, adjusted⟩ := entries entry member
    · exact new ▸ Timer.idleInPhase (by decide) (by decide)
    · exact (phase.timers _ old).adjusted phase.current adjusted
  | advanced advance current owed timers currentAfter owedAfter timersAfter =>
    rw [← current, ← timers] at phase
    rw [currentAfter, timersAfter, ← current]
    obtain ⟨onward, notBack, _⟩ := phase.advanced advance
    exact ⟨onward, notBack⟩

theorem freshInPhase : InPhase fresh.current fresh.timers := ⟨by decide, nofun⟩

def Operation.loads : Operation → Bool
  | .load _ => true
  | _ => false

theorem Operation.unloaded {op : Operation} (onward : op.onward) : op.loads = false := by
  cases op with
  | load => cases onward
  | _ => rfl

theorem InPhase.performed {op : Operation} {outcome : Outcome} (phase : InPhase c.current c.timers)
    (h : c.perform callback world op = .ok (outcome, d, later)) (unloaded : op.loads = false) :
    InPhase d.current d.timers := by
  by_cases onward : op.onward
  · exact (phase.changed (performChanges h onward)).1
  · cases op with
    | reset =>
      cases h
      refine ⟨freshInPhase.current, fun entry member => ?_⟩
      obtain ⟨old, before, rfl⟩ := List.mem_map.1 member
      exact Timer.idleInPhase (phase.timers old before).normalized (by simp [Timer.schedulable, Timer.setEnabled])
    | load => cases unloaded
    | _ => exact absurd rfl onward

theorem InPhase.run {ops : List Operation} (phase : InPhase c.current c.timers)
    (h : (c.run callback world ops).2 = .ok (d, later)) (unloaded : ∀ op ∈ ops, op.loads = false) :
    InPhase d.current d.timers := by
  induction ops generalizing c world with
  | nil => cases h; exact phase
  | cons op rest ih =>
    obtain ⟨first, others⟩ := List.forall_mem_cons.1 unloaded
    obtain ⟨_, _, _, performed, onward, _⟩ := runOk h
    exact ih (phase.performed performed first) onward others

end

section
variable {id : TimerId} {t u : Timer}

theorem updateMeets {operation : Timer → Except Fault Timer} {timers : List (TimerId × Timer)} (found : timers.lookup id = some t)
    (done : operation t = .ok u) :
    ∃ after, updateTimer id operation timers = .ok after ∧ after.lookup id = some u := by
  induction timers with
  | nil => cases found
  | cons head rest ih =>
    obtain ⟨other, v⟩ := head
    rw [List.lookup_cons] at found
    by_cases same : other = id
    · simp only [same, beq_self_eq_true, Option.some.injEq] at found
      rw [found, updateTimer, if_pos same, done]
      exact ⟨_, rfl, by simp [same]⟩
    · have differs : (id == other) = false := by simpa using Ne.symm same
      rw [differs] at found
      obtain ⟨after, updated, now⟩ := ih found
      rw [updateTimer, if_neg same, updated]
      exact ⟨_, rfl, by rw [List.lookup_cons, differs]; exact now⟩

theorem onTimerMeets (operation : Timer → Except Fault Timer) (found : c.timer? id = some t) (done : operation t = .ok u) :
    ∃ d, c.onTimer id operation = .ok d ∧ d.timer? id = some u := by
  obtain ⟨after, updated, now⟩ := updateMeets found done
  refine ⟨{ c with timers := after }, ?_, now⟩
  rw [onTimer, updated]
  rfl

end

end Clock

namespace Timer
variable {now : Ticks} {t : Timer}

theorem scalingFits {togo old : Nat} (period : UInt64) (near : togo < UInt64.size) (word : old < UInt64.size) :
    togo * period.toNat + old / 2 < wideSize := by
  have product : togo * period.toNat ≤ (UInt64.size - 1) * (UInt64.size - 1) :=
    Nat.mul_le_mul (Nat.le_sub_one_of_lt near) (Nat.le_sub_one_of_lt period.toNat_lt)
  simp only [UInt64.size, wideSize] at *
  omega

theorem productFits {togo old : Nat} (period : UInt64) (within : togo ≤ old) (word : old < UInt64.size) :
    togo * period.toNat + old / 2 < wideSize :=
  scalingFits period (Nat.lt_of_le_of_lt within word) word

theorem rebaseScales {togo : Ticks} {period : UInt64} {product rounded : Nat} (on : t.schedulable)
    (distance : t.nextMatch.saturatingSub now = .ok togo) (multiplied : mulWide togo.get period.toNat = .ok product)
    (half : addWide product (t.period.toNat / 2) = .ok rounded) :
    t.rebase period now = (now.addCount (clampWord (rounded / t.period.toNat))).map
      fun next => { t with period, nextMatch := next } := by
  obtain ⟨enabled, positive⟩ := (schedulableIff t).1 on
  have some : t.period ≠ 0 := fun zero => by simp [zero] at positive
  unfold Timer.rebase
  rw [if_neg (by simp [enabled]), if_neg some, distance, okBind]
  simp only [multiplied, half, okBind]
  cases now.addCount (clampWord (rounded / t.period.toNat)) <;> rfl

def togo (t : Timer) (now : Ticks) : Nat := t.nextMatch.get - now.get

structure Rebased (t : Timer) (period : UInt64) (now : Ticks) (distance : Nat) (u : Timer) : Prop where
  kept : u = { t with period, nextMatch := u.nextMatch }
  exact : u.nextMatch.Normalized
  next : u.nextMatch.get = now.get + distance

theorem rebaseAhead (on : t.schedulable) (exact : now.Normalized) (ahead : now ≤ t.nextMatch)
    (near : t.togo now < UInt64.size) (period : UInt64) :
    t.rebase period now = (now.addCount (clampWord (rescaled (t.togo now) t.period.toNat period.toNat))).map
      fun next => { t with period, nextMatch := next } := by
  obtain ⟨distance, difference, _, sum⟩ := Ticks.saturatingSubAhead exact ahead
  have left : t.togo now = distance.get := by
    rw [togo]
    omega
  rw [left] at near ⊢
  have fits := scalingFits period near t.period.toNat_lt
  have product : distance.get * period.toNat < wideSize := by omega
  exact rebaseScales on difference (if_pos product) (if_pos fits)

theorem rebaseReaches (on : t.schedulable) (exact : now.Normalized) (ahead : now ≤ t.nextMatch)
    (near : t.togo now < UInt64.size) (period : UInt64)
    (room : now.get + (clampWord (rescaled (t.togo now) t.period.toNat period.toNat)).toNat < Ticks.range) :
    ∃ u, t.rebase period now = .ok u ∧
      t.Rebased period now (clampWord (rescaled (t.togo now) t.period.toNat period.toNat)).toNat u := by
  obtain ⟨next, added, normalized, total⟩ := Ticks.addCountMeets exact room
  refine ⟨{ t with period, nextMatch := next }, ?_, rfl, normalized, total⟩
  rw [rebaseAhead on exact ahead near, added]
  rfl

theorem rebaseRests (off : ¬ t.schedulable) (exact : now.Normalized) (period : UInt64)
    (room : now.get + period.toNat < Ticks.range) :
    ∃ u, t.rebase period now = .ok u ∧ u.compare = t.compare ∧ u.prescaler = t.prescaler := by
  by_cases enabled : t.enabled = true
  · have zero : t.period = 0 := by
      rw [schedulableIff] at off
      exact UInt64.toNat_inj.1 (Nat.eq_zero_of_not_pos fun positive => off ⟨enabled, positive⟩)
    obtain ⟨next, added, _⟩ := Ticks.addCountMeets exact room
    refine ⟨{ t with period, nextMatch := next }, ?_, rfl, rfl⟩
    rw [Timer.rebase, if_neg (by simp [enabled]), if_pos zero, added]
    rfl
  · exact ⟨{ t with period }, if_pos (by simpa using enabled), rfl, rfl⟩

theorem InPhase.rebase (phase : t.InPhase now) (exact : now.Normalized) (period : UInt64)
    (room : now.get + period.toNat < Ticks.range) :
    ∃ u, t.rebase period now = .ok u ∧ u.compare = t.compare ∧ u.prescaler = t.prescaler ∧
      (t.schedulable →
        u.nextMatch.get = now.get + rescaled (t.nextMatch.get - now.get) t.period.toNat period.toNat) := by
  by_cases on : t.schedulable
  · have within := phase.within on
    have inside : t.togo now ≤ t.period.toNat := by
      rw [togo]
      omega
    have part := rescaledLe ((schedulableIff t).1 on).2 inside period.toNat
    have scaled := clampWordExact (Nat.lt_of_le_of_lt part period.toNat_lt)
    obtain ⟨u, done, rebased⟩ := rebaseReaches on exact (Ticks.leOfGet phase.normalized (phase.ahead on))
      (Nat.lt_of_le_of_lt inside t.period.toNat_lt) period (by omega)
    have next := rebased.next
    rw [scaled] at next
    refine ⟨u, done, ?_, ?_, fun _ => next⟩
    · rw [rebased.kept]
    · rw [rebased.kept]
  · obtain ⟨u, done, compare, prescaler⟩ := rebaseRests on exact period room
    exact ⟨u, done, compare, prescaler, fun takesPart => absurd takesPart on⟩

theorem periodOfExact (compare prescaler : UInt32) :
    (periodOf compare prescaler).toNat = compare.toNat * prescaler.toNat := by
  have product : compare.toNat * prescaler.toNat ≤ (UInt32.size - 1) * (UInt32.size - 1) :=
    Nat.mul_le_mul (Nat.le_sub_one_of_lt compare.toNat_lt) (Nat.le_sub_one_of_lt prescaler.toNat_lt)
  rw [periodOf, UInt64.toNat_mul, UInt32.toNat_toUInt64, UInt32.toNat_toUInt64]
  exact Nat.mod_eq_of_lt (Nat.lt_of_le_of_lt product (by decide))

end Timer

namespace Clock
variable {World : Type} {callback : Callback World} {c : Clock} {world later : World}

/-- After any operations but a load, each timer has the product of its settings for a period, and
if it takes part its next match within one period from now; after an advance that was not deferred
no match is left for the instant reached. So a new period is scaled to within words, and a setting
that the range of ticks has room for is taken over. -/
theorem phaseKept {ops : List Operation} (unloaded : ∀ op ∈ ops, op.loads = false)
    (ran : (fresh.run callback world ops).2 = .ok (c, later)) :
    (∀ entry ∈ c.timers, entry.2.period.toNat = entry.2.compare.toNat * entry.2.prescaler.toNat ∧
      (entry.2.schedulable → c.current ≤ entry.2.nextMatch ∧ c.current.get ≤ entry.2.nextMatch.get ∧
        entry.2.nextMatch.get ≤ c.current.get + entry.2.period.toNat)) ∧
    (∀ {World : Type} (callback : Callback World) (world later : World) (d : Clock),
      (∀ delta outcome, c.advance callback world delta = .ok (outcome, d, later) →
        outcome.deferred = false → NothingDue d.current.get d.timers) ∧
      (∀ last now summary, c.state = .running → c.lastStep = some last →
        c.step callback world now = .ok (summary, d, later) → summary.deferred = false →
        NothingDue d.current.get d.timers)) ∧
    (∀ id t, c.timer? id = some t →
      (t.schedulable → ∀ period : UInt64,
        (t.nextMatch.get - c.current.get) * period.toNat + t.period.toNat / 2 < wideSize ∧
        Timer.rescaled (t.nextMatch.get - c.current.get) t.period.toNat period.toNat ≤ period.toNat) ∧
      (∀ compare : UInt32, c.current.get + compare.toNat * t.prescaler.toNat < Ticks.range →
        ∃ d u, c.setCompare id compare = .ok d ∧ d.timer? id = some u ∧
          u.compare = compare ∧ u.prescaler = t.prescaler ∧
          (t.schedulable → u.nextMatch.get = c.current.get + Timer.rescaled
            (t.nextMatch.get - c.current.get) t.period.toNat (compare.toNat * t.prescaler.toNat))) ∧
      (∀ prescaler : UInt32, c.current.get + t.compare.toNat * prescaler.toNat < Ticks.range →
        ∃ d u, c.setPrescaler id prescaler = .ok d ∧ d.timer? id = some u ∧
          u.compare = t.compare ∧ u.prescaler = prescaler ∧
          (t.schedulable → u.nextMatch.get = c.current.get + Timer.rescaled
            (t.nextMatch.get - c.current.get) t.period.toNat (t.compare.toNat * prescaler.toNat)))) := by
  have phase := freshInPhase.run ran unloaded
  have sound := (Reachable.fresh.run ran).sound
  refine ⟨fun entry member => ⟨?_, fun on => ?_⟩, fun callback world later d => ⟨?_, ?_⟩, ?_⟩
  · rw [show entry.2.period = _ from sound.periods entry member, Timer.periodOfExact]
  · have own := phase.timers entry member
    exact ⟨Ticks.leOfGet own.normalized (own.ahead on), own.ahead on, own.within on⟩
  · intro delta outcome advanced
    exact (phase.advanced advanced).2.2
  · intro last now summary running reference stepped kept
    obtain ⟨outcome, after, steps⟩ := stepAdvances running reference stepped
    rw [steps.summary] at kept
    rw [steps.clock]
    have before : InPhase (c.stepped last now).current (c.stepped last now).timers := phase
    exact (before.advanced steps.advance).2.2 kept
  · intro id t found
    obtain ⟨before, after, place, _⟩ := List.lookup_eq_some_iff.1 found
    have own := phase.timers (id, t) (by simp [place])
    refine ⟨fun on period => ?_, fun compare room => ?_, fun prescaler room => ?_⟩
    · have within := own.within on
      have inside : t.nextMatch.get - c.current.get ≤ t.period.toNat := by
        dsimp only at within
        omega
      exact ⟨Timer.productFits period inside t.period.toNat_lt,
        Timer.rescaledLe ((Timer.schedulableIff t).1 on).2 inside _⟩
    · rw [← Timer.periodOfExact] at room ⊢
      have set : Timer.InPhase c.current { t with compare } := ⟨own.normalized, own.ahead, own.within⟩
      obtain ⟨u, rebased, sameCompare, samePrescaler, next⟩ := set.rebase phase.current _ room
      obtain ⟨d, done, now⟩ := onTimerMeets (·.setCompare compare c.current) found rebased
      exact ⟨d, u, done, now, sameCompare, samePrescaler, next⟩
    · rw [← Timer.periodOfExact] at room ⊢
      have set : Timer.InPhase c.current { t with prescaler } := ⟨own.normalized, own.ahead, own.within⟩
      obtain ⟨u, rebased, sameCompare, samePrescaler, next⟩ := set.rebase phase.current _ room
      obtain ⟨d, done, now⟩ := onTimerMeets (·.setPrescaler prescaler c.current) found rebased
      exact ⟨d, u, done, now, sameCompare, samePrescaler, next⟩

theorem quarterLeft :
    let ops : List Operation := [.create, .create, .setPrescaler ⟨0⟩ 8, .setCompare ⟨0⟩ 100, .enable ⟨0⟩ true,
      .enable ⟨1⟩ true, .advance 2150, .setCompare ⟨1⟩ 7, .reset, .enable ⟨0⟩ true, .advance 600]
    let t : Timer := ⟨true, 100, 8, 800, ⟨0, 800⟩, 2⟩
    let c : Clock := { Clock.fresh with
      timers := [(⟨0⟩, t), (⟨1⟩, ⟨false, 7, 1, 7, ⟨0, 2157⟩, 0⟩)], nextId := 2, current := ⟨0, 600⟩ }
    (∀ op ∈ ops, op.loads = false) ∧
      (fresh.run .record [] ops).2 = .ok (c, [⟨⟨0⟩, ⟨0, 1600⟩⟩, ⟨⟨0⟩, ⟨0, 800⟩⟩]) ∧
      c.current.get ≤ t.nextMatch.get ∧ t.nextMatch.get ≤ c.current.get + t.period.toNat ∧
      ∃ d u, c.setPrescaler ⟨0⟩ 64 = .ok d ∧ d.timer? ⟨0⟩ = some u ∧ u.nextMatch.get = 600 + 1600 := by
  intro ops t c
  have unloaded : ∀ op ∈ ops, op.loads = false := by decide
  have ran : (fresh.run .record [] ops).2 = .ok (c, [⟨⟨0⟩, ⟨0, 1600⟩⟩, ⟨⟨0⟩, ⟨0, 800⟩⟩]) := by cbv
  obtain ⟨phase, _, settings⟩ := phaseKept unloaded ran
  obtain ⟨_, ahead, within⟩ := (phase (⟨0⟩, t) List.mem_cons_self).2 (by decide)
  obtain ⟨_, _, prescales⟩ := settings ⟨0⟩ t (by decide)
  obtain ⟨d, u, set, found, _, _, next⟩ := prescales 64 (by decide)
  exact ⟨unloaded, ran, ahead, within, d, u, set, found, (next (by decide)).trans (by decide)⟩

end Clock

end RobotLink
