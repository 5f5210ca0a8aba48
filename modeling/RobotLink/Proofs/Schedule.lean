import RobotLink.Proofs.Sweep

/-! The schedule of an uncapped step. It makes exactly the matches of each timer up to its end,
every one once, in order of time and of registration, and leaves each timer at its first match
after the end. -/
namespace RobotLink

structure Timer.ServicedTo (target : Nat) (t : Timer) (count : Nat) (u : Timer) : Prop where
  settings : u = { t with nextMatch := u.nextMatch, fires := t.fires + count }
  normalized : u.nextMatch.Normalized
  progression : u.nextMatch.get = t.nextMatch.get + count * t.period.toNat
  above : target < u.nextMatch.get
  first : ∀ k < count, t.nextMatch.get + k * t.period.toNat ≤ target

namespace Clock

theorem servicedTo {timers after : List (TimerId × Timer)} {strikes : List Strike} {target : Nat}
    (struck : Strikes timers strikes after) (normalized : ∀ entry ∈ timers, entry.2.nextMatch.Normalized)
    (due : ∀ s ∈ strikes, s.instant.get ≤ target) (nothing : NothingDue target after)
    {i : Nat} {id : TimerId} {t : Timer} (place : timers[i]? = some (id, t)) (schedulable : t.schedulable) :
    ∃ u, after[i]? = some (id, u) ∧ t.ServicedTo target (strikes.countP (·.position = i)) u := by
  obtain ⟨next, left, progression, first⟩ := strikesService struck due place
  have member := List.mem_of_getElem? left
  have exact : next.Normalized := (strikesNormalized struck normalized).2 _ member
  have above : target < next.get := nothing (id, { t with nextMatch := next, fires := _ }) member schedulable
  exact ⟨_, left, rfl, exact, progression, above, first⟩

/-- Whatever the callback, the calls of an uncapped step are the strictly ascending list of all
matches up to its end. -/
theorem scheduleMet {c : Clock} {delta : UInt64} (normalized : c.Normalized) (uncapped : c.cpuUsage = .max)
    (room : c.total + delta.toNat + longestPeriod c.timers < Ticks.range) :
    ∃ (target : Ticks) (strikes : List Strike) (after : List (TimerId × Timer)),
      target.Normalized ∧ target.get = c.total + delta.toNat ∧
      strikes.Pairwise Strike.Before ∧
      (∀ s, s ∈ strikes ↔ s.OnSchedule c.timers ∧ s.instant.get ≤ target.get) ∧
      (∀ {World : Type} (callback : Callback World) (world : World),
        c.advance callback world delta = (callback.serve strikes world).map fun world =>
          (⟨strikes.length, false⟩, { c with current := target, timers := after, owed := 0 }, world)) ∧
      (∀ log : List Firing,
        c.advance .record log delta =
          .ok (⟨strikes.length, false⟩, { c with current := target, timers := after, owed := 0 },
            (strikes.map Strike.firing).reverse ++ log)) ∧
      after.length = c.timers.length ∧
      ∀ (i : Nat) (id : TimerId) (t : Timer), c.timers[i]? = some (id, t) →
        (¬ t.schedulable → after[i]? = some (id, t)) ∧
        (t.schedulable → ∃ u, after[i]? = some (id, u) ∧
          t.ServicedTo target.get (strikes.countP (·.position = i)) u) := by
  have inRange : c.total + delta.toNat < Ticks.range := by omega
  obtain ⟨target, strikes, after, capped, exact, sum, struck, _, due, ends, same⟩ :=
    advanceMeets normalized.current (readyOf normalized.timers room) (Nat.le_refl _) inRange
  cases capped with
  | true =>
    rw [uncapped] at ends
    cases ends.1
  | false =>
    have nothing : NothingDue target.get after := ends
    obtain ⟨ordered, listed⟩ := strikesListed struck normalized.timers due nothing
    refine ⟨target, strikes, after, exact, sum, ordered, listed, same, ?_, strikesLength struck, ?_⟩
    · intro log
      rw [same, Callback.serveRecord]
      rfl
    · intro i id t place
      exact ⟨strikesSpare struck place, servicedTo struck normalized.timers due nothing place⟩

theorem mixedTimersScheduled :
    let timers : List (TimerId × Timer) :=
      [(⟨0⟩, ⟨true, 4, 1, 4, ⟨0, 6⟩, 0⟩), (⟨1⟩, ⟨true, 3, 2, 6, ⟨0, 6⟩, 0⟩), (⟨2⟩, ⟨false, 5, 1, 5, ⟨0, 4⟩, 9⟩),
        (⟨3⟩, ⟨true, 0, 8, 0, ⟨0, 1⟩, 0⟩), (⟨4⟩, ⟨true, 5, 1, 5, ⟨0, 1⟩, 2⟩)]
    let c : Clock := { Clock.fresh with cpuUsage := .max, timers, current := ⟨0, 3⟩, owed := 2 }
    c.Normalized ∧ c.cpuUsage = .max ∧ c.total + (7 : UInt64).toNat + longestPeriod c.timers < Ticks.range ∧
      ∃ (strikes : List Strike) (after : List (TimerId × Timer)), strikes.Pairwise Strike.Before ∧
        (∀ s, s ∈ strikes ↔ s.OnSchedule timers ∧ s.instant.get ≤ 12) ∧
        c.advance .record [] 7 =
          .ok (⟨strikes.length, false⟩, { c with current := ⟨0, 12⟩, timers := after, owed := 0 },
            (strikes.map Strike.firing).reverse ++ []) ∧
        ⟨4, ⟨4⟩, ⟨0, 11⟩⟩ ∈ strikes := by
  intro timers c
  have normalized : c.Normalized := ⟨by decide, by decide⟩
  have room : c.total + (7 : UInt64).toNat + longestPeriod c.timers < Ticks.range := by decide
  obtain ⟨target, strikes, after, exact, sum, ordered, listed, _, recorded, _⟩ := scheduleMet normalized rfl room
  have twelve : target = ⟨0, 12⟩ := Ticks.getInjective exact (by decide) (sum.trans (by decide))
  rw [twelve] at recorded listed
  refine ⟨normalized, rfl, room, strikes, after, ordered, listed, recorded [], (listed _).2 ⟨?_, by decide⟩⟩
  exact ⟨_, 2, rfl, by decide, by decide, by decide⟩

end Clock

end RobotLink
