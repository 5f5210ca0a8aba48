import Mathlib
import RobotLink.Proofs.Phase
import RobotLink.Proofs.SaveFiles
import RobotLink.Proofs.TickNumbers

/-! Changing the period of a timer. The distance to the next match is scaled to the nearest tick, so
its part of the period changes by half a tick at most, and what a chain of longer periods rounds is
rounded back by the same chain in reverse. -/
namespace RobotLink

theorem Ticks.getLeOfAhead {a b : Ticks} (exact : b.Normalized) (ahead : b ≤ a) : b.get ≤ a.get := by
  obtain ⟨d, _, _, sum⟩ := checkedSubAhead exact ahead
  omega

namespace Timer

section
variable {togo old new : Nat}

theorem rescaledWholes (togo old new : Nat) :
    rescaled togo old new * old + (togo * new + old / 2) % old = togo * new + old / 2 :=
  Nat.div_add_mod' _ _

theorem rescaledNearest (positive : 0 < old) (togo new : Nat) :
    2 * |(rescaled togo old new * old - togo * new : Int)| ≤ old := by
  have whole := rescaledWholes togo old new
  have part := Nat.mod_lt (togo * new + old / 2) positive
  generalize (togo * new + old / 2) % old = rest at whole part
  have rounded : (rescaled togo old new * old - togo * new : Int) = (old / 2 : Nat) - rest := by
    have cast := congrArg (Nat.cast (R := Int)) whole
    push_cast at cast ⊢
    omega
  rw [rounded]
  rcases abs_cases (((old / 2 : Nat) : Int) - rest) with ⟨same, _⟩ | ⟨same, _⟩
  · omega
  · omega

theorem rescaledMono {less more : Nat} (le : less ≤ more) (old new : Nat) :
    rescaled less old new ≤ rescaled more old new :=
  Nat.div_le_div_right (Nat.add_le_add_right (Nat.mul_le_mul_right new le) _)

theorem rescaledSame (positive : 0 < old) (togo : Nat) : rescaled togo old old = togo := by
  unfold rescaled
  rw [Nat.mul_comm, Nat.mul_add_div positive, Nat.div_eq_of_lt (by omega), Nat.add_zero]

theorem rescaledGrows (positive : 0 < old) (slower : old ≤ new) (togo : Nat) : togo ≤ rescaled togo old new := by
  have product := Nat.mul_le_mul_left togo slower
  rw [rescaled, Nat.le_div_iff_mul_le positive]
  omega

theorem rescaledUndone (positive : 0 < old) (slower : old ≤ new) (togo : Nat) :
    rescaled (rescaled togo old new) new old = togo := by
  rcases Nat.eq_or_lt_of_le slower with rfl | longer
  · rw [rescaledSame positive, rescaledSame positive]
  · have whole := rescaledWholes togo old new
    have part := Nat.mod_lt (togo * new + old / 2) positive
    rw [rescaled]
    apply Nat.div_eq_of_lt_le
    · omega
    · rw [Nat.succ_mul]
      omega

end

section
variable {t u : Timer} {now : Ticks} {period : UInt64} {distance : Nat}

theorem Rebased.given (h : t.Rebased period now distance u) : u.period = period := by rw [h.kept]

theorem Rebased.left (h : t.Rebased period now distance u) : u.togo now = distance := by
  rw [togo, h.next]
  exact Nat.add_sub_cancel_left _ _

theorem Rebased.ahead (h : t.Rebased period now distance u) : now ≤ u.nextMatch := by
  apply Ticks.leOfGet h.exact
  rw [h.next]
  exact Nat.le_add_right _ _

theorem Rebased.enabled (h : t.Rebased period now distance u) : u.enabled = t.enabled := by rw [h.kept]

theorem rebaseClamps (enabled : t.enabled) (positive : 0 < t.period.toNat) (exact : now.Normalized)
    (ahead : now ≤ t.nextMatch) (near : t.togo now < UInt64.size) (period : UInt64) :
    let distance := min (rescaled (t.togo now) t.period.toNat period.toNat) (UInt64.size - 1)
    (Ticks.range ≤ now.get + distance → t.rebase period now = .error .addOverflow) ∧
      (now.get + distance < Ticks.range → ∃ u, t.rebase period now = .ok u ∧ t.Rebased period now distance u) := by
  intro distance
  have on := (schedulableIff t).2 ⟨enabled, positive⟩
  have scaled : (clampWord (rescaled (t.togo now) t.period.toNat period.toNat)).toNat = distance := clampWordLeast _
  rw [← scaled]
  refine ⟨fun outside => ?_, rebaseReaches on exact ahead near period⟩
  rw [rebaseAhead on exact ahead near, Ticks.addCountFails exact outside]
  rfl

theorem rebaseRounds (enabled : t.enabled) (positive : 0 < t.period.toNat) (exact : now.Normalized)
    (ahead : now ≤ t.nextMatch) (near : t.togo now < UInt64.size) (period : UInt64)
    (fits : rescaled (t.togo now) t.period.toNat period.toNat < UInt64.size)
    (room : now.get + rescaled (t.togo now) t.period.toNat period.toNat < Ticks.range) :
    ∃ u, t.rebase period now = .ok u ∧
      t.Rebased period now (rescaled (t.togo now) t.period.toNat period.toNat) u := by
  obtain ⟨_, reaches⟩ := rebaseClamps enabled positive exact ahead near period
  rw [Nat.min_eq_left (Nat.le_sub_one_of_lt fits)] at reaches
  exact reaches room

theorem rebaseWithin (enabled : t.enabled) (positive : 0 < t.period.toNat) (exact : now.Normalized)
    (ahead : now ≤ t.nextMatch) (within : t.togo now ≤ t.period.toNat) (period : UInt64)
    (room : now.get + period.toNat < Ticks.range) :
    ∃ u, t.rebase period now = .ok u ∧
      t.Rebased period now (rescaled (t.togo now) t.period.toNat period.toNat) u := by
  have part := rescaledLe positive within period.toNat
  exact rebaseRounds enabled positive exact ahead (Nat.lt_of_le_of_lt within t.period.toNat_lt) period
    (Nat.lt_of_le_of_lt part period.toNat_lt) (Nat.lt_of_le_of_lt (Nat.add_le_add_left part _) room)

end

/-- From within its period a timer takes over any other with the same part of it to go, to the nearest
tick: no more than the new period, all of it if all was left, and no less than from a shorter
distance. From beyond its period, as after a load, the distance is the nearest as long as it is a
word, the greatest word above that, and a fault where the match would be out of range. -/
theorem fractionKept {t : Timer} {now : Ticks} (period : UInt64) (enabled : t.enabled)
    (positive : 0 < t.period.toNat) (exact : now.Normalized) (ahead : now ≤ t.nextMatch) :
    let r := t.togo now
    let P := t.period.toNat
    let Q := period.toNat
    (r ≤ P → now.get + Q < Ticks.range →
      r * Q + P / 2 < wideSize ∧ (r * Q + P / 2) / P < UInt64.size ∧
      ∃ u, t.rebase period now = .ok u ∧ t.Rebased period now (u.togo now) u ∧
        2 * |(u.togo now * P - r * Q : Int)| ≤ P ∧ u.togo now ≤ Q ∧ (r = P → u.togo now = Q) ∧
        ∀ (s : Timer) (instant : Ticks), s.enabled → s.period = t.period → instant.Normalized → instant ≤ s.nextMatch →
          s.togo instant ≤ r → instant.get + Q < Ticks.range →
          ∃ v, s.rebase period instant = .ok v ∧ v.togo instant ≤ u.togo now) ∧
    (P < r → r < UInt64.size →
      r * Q + P / 2 < wideSize ∧
      (Ticks.range ≤ now.get + min ((r * Q + P / 2) / P) (UInt64.size - 1) →
        t.rebase period now = .error .addOverflow) ∧
      (now.get + min ((r * Q + P / 2) / P) (UInt64.size - 1) < Ticks.range →
        ∃ u, t.rebase period now = .ok u ∧ t.Rebased period now (u.togo now) u ∧
          ((r * Q + P / 2) / P < UInt64.size → 2 * |(u.togo now * P - r * Q : Int)| ≤ P) ∧
          (UInt64.size ≤ (r * Q + P / 2) / P → u.togo now = UInt64.size - 1))) := by
  intro r P Q
  have word : P < UInt64.size := t.period.toNat_lt
  refine ⟨fun within room => ?_, fun beyond near => ?_⟩
  · have part : rescaled r P Q ≤ Q := rescaledLe positive within Q
    obtain ⟨u, done, rebased⟩ := rebaseWithin enabled positive exact ahead within period room
    have left : u.togo now = rescaled r P Q := rebased.left
    rw [← left] at rebased
    refine ⟨productFits period within word, Nat.lt_of_le_of_lt part period.toNat_lt, u, done, rebased, ?_, ?_, ?_, ?_⟩
    · rw [left]
      exact rescaledNearest positive r Q
    · rw [left]
      exact part
    · intro all
      rw [left, all]
      exact rescaledWhole positive Q
    · intro s instant also same normalized before less space
      have own : s.period.toNat = P := congrArg UInt64.toNat same
      obtain ⟨v, reached, moved⟩ := rebaseWithin also (own.symm ▸ positive) normalized before
        (own.symm ▸ Nat.le_trans less within) period space
      refine ⟨v, reached, ?_⟩
      rw [moved.left, left, own]
      exact rescaledMono less P Q
  · obtain ⟨faults, reaches⟩ := rebaseClamps enabled positive exact ahead near period
    refine ⟨scalingFits period near word, faults, fun room => ?_⟩
    obtain ⟨u, done, rebased⟩ := reaches room
    have left : u.togo now = min (rescaled r P Q) (UInt64.size - 1) := rebased.left
    rw [← rebased.left] at rebased
    refine ⟨u, done, rebased, fun fits => ?_, fun large => ?_⟩
    · have whole : rescaled r P Q ≤ UInt64.size - 1 := Nat.le_sub_one_of_lt fits
      rw [left, Nat.min_eq_left whole]
      exact rescaledNearest positive r Q
    · rw [left]
      exact Nat.min_eq_right (Nat.le_trans (Nat.sub_le _ _) large)

theorem partsKept :
    let t : Timer := ⟨true, 7, 1, 7, ⟨2, 3⟩, 4⟩
    let loaded : Timer := ⟨true, 7, 1, 7, ⟨2, 19⟩, 4⟩
    let now : Ticks := ⟨1, 999998⟩
    let period : UInt64 := 10
    (t.enabled ∧ loaded.enabled ∧ now.Normalized ∧ now ≤ t.nextMatch ∧ now ≤ loaded.nextMatch ∧
      t.togo now = 5 ∧ loaded.togo now = 21 ∧ now.get + period.toNat < Ticks.range) ∧
      (∃ u, t.rebase period now = .ok u ∧ u.togo now ≤ period.toNat ∧
        2 * |(u.togo now * t.period.toNat - t.togo now * period.toNat : Int)| ≤ t.period.toNat) ∧
      ∃ u, loaded.rebase period now = .ok u ∧
        2 * |(u.togo now * loaded.period.toNat - loaded.togo now * period.toNat : Int)| ≤ loaded.period.toNat := by
  intro t loaded now period
  obtain ⟨_, _, u, done, _, near, part, _⟩ :=
    (@fractionKept t now period rfl (by decide) (by decide) (by decide)).1 (by decide) (by decide)
  obtain ⟨_, _, room⟩ :=
    (@fractionKept loaded now period rfl (by decide) (by decide) (by decide)).2 (by decide) (by decide)
  obtain ⟨v, also, _, nearest, _⟩ := room (by decide)
  exact ⟨by decide, ⟨u, done, part, near⟩, v, also, nearest (by decide)⟩

theorem rescaledOutOfRange :
    let t : Timer := ⟨true, 0, 1, 2, ⟨0xFFFFFFFFFFFFFFFF, 999998⟩, 0⟩
    let now : Ticks := ⟨0xFFFFFFFFFFFFFFFF, 999995⟩
    t.enabled ∧ now.Normalized ∧ now ≤ t.nextMatch ∧ t.period.toNat < t.togo now ∧ t.togo now < UInt64.size ∧
      now.get + 3 < Ticks.range ∧ rescaled (t.togo now) t.period.toNat 3 < UInt64.size ∧
      now.get + 4 < Ticks.range ∧ 2 * |(4 * t.period.toNat - t.togo now * 3 : Int)| ≤ t.period.toNat ∧
      t.rebase 3 now = .error .addOverflow := by
  intro t now
  exact ⟨rfl, by decide, by decide, by decide, by decide, by decide, by decide, by decide, by decide, by cbv⟩

structure Undone (t v : Timer) : Prop where
  period : v.period = t.period
  next : v.nextMatch.get = t.nextMatch.get
  same : t.nextMatch.Normalized → v = t

theorem rebaseUndone {t : Timer} {now : Ticks} {period : UInt64} (enabled : t.enabled)
    (positive : 0 < t.period.toNat) (exact : now.Normalized) (ahead : now ≤ t.nextMatch)
    (longer : t.period.toNat ≤ period.toNat)
    (word : rescaled (t.togo now) t.period.toNat period.toNat < UInt64.size)
    (room : now.get + rescaled (t.togo now) t.period.toNat period.toNat < Ticks.range) :
    ∃ u v, t.rebase period now = .ok u ∧ t.Rebased period now (rescaled (t.togo now) t.period.toNat period.toNat) u ∧
      u.rebase t.period now = .ok v ∧ t.Undone v := by
  have grows := rescaledGrows positive longer (t.togo now)
  obtain ⟨u, done, rebased⟩ := rebaseRounds enabled positive exact ahead (Nat.lt_of_le_of_lt grows word) period word room
  have left := rebased.left
  have undone : rescaled (u.togo now) u.period.toNat t.period.toNat = t.togo now := by
    rw [rebased.given, left, rescaledUndone positive longer]
  obtain ⟨v, restored, again⟩ := rebaseRounds (rebased.enabled.trans enabled)
    (by rw [rebased.given]; omega) exact rebased.ahead (by rw [left]; exact word) t.period
    (by rw [undone]; omega) (by rw [undone]; omega)
  have home : v.nextMatch.get = t.nextMatch.get := by
    have notOver := Ticks.getLeOfAhead exact ahead
    rw [again.next, undone, togo]
    omega
  refine ⟨u, v, done, rebased, restored, again.given, home, fun normalized => ?_⟩
  rw [again.kept, Ticks.getInjective again.exact normalized home, rebased.kept]

def rebaseAll (t : Timer) (periods : List UInt64) (now : Ticks) : Except Fault Timer :=
  periods.foldlM (fun t period => t.rebase period now) t

def distances (togo old : Nat) : List UInt64 → List Nat
  | [] => []
  | period :: rest =>
    let left := rescaled togo old period.toNat
    left :: distances left period.toNat rest

/-- Ever longer periods one after the other at one instant, and then the same back to the first, leave
the timer as it was. -/
theorem slowingUndone {t : Timer} {now : Ticks} {periods : List UInt64} (enabled : t.enabled)
    (positive : 0 < t.period.toNat) (exact : now.Normalized) (ahead : now ≤ t.nextMatch)
    (slower : (t.period :: periods).Pairwise (· ≤ ·))
    (fits : ∀ d ∈ distances (t.togo now) t.period.toNat periods, d < UInt64.size ∧ now.get + d < Ticks.range) :
    ∃ u v, t.rebaseAll periods now = .ok u ∧ u.rebaseAll (t.period :: periods).dropLast.reverse now = .ok v ∧
      v.period = t.period ∧ v.nextMatch.get = t.nextMatch.get ∧ (t.nextMatch.Normalized → v = t) := by
  induction periods generalizing t with
  | nil => exact ⟨t, t, rfl, rfl, rfl, rfl, fun _ => rfl⟩
  | cons period rest ih =>
    obtain ⟨⟨word, room⟩, later⟩ := List.forall_mem_cons.1 fits
    obtain ⟨first, onward⟩ := List.pairwise_cons.1 slower
    have longer : t.period.toNat ≤ period.toNat := UInt64.le_iff_toNat_le.1 (first period List.mem_cons_self)
    obtain ⟨u, v, done, rebased, restored, undone⟩ := rebaseUndone enabled positive exact ahead longer word room
    have given := rebased.given
    -- The rest of the way there and back starts and ends at the first step's timer.
    obtain ⟨last, back, ran, returned, _, _, same⟩ := ih (t := u) (rebased.enabled.trans enabled)
      (by rw [given]; omega) rebased.ahead (by rw [given]; exact onward)
      (by rw [given, rebased.left]; exact later)
    obtain rfl := same rebased.exact
    refine ⟨last, v, ?_, ?_, undone.period, undone.next, undone.same⟩
    · rw [rebaseAll, List.foldlM_cons, done]
      exact ran
    · rw [given, rebaseAll] at returned
      rw [List.dropLast_cons_cons, List.reverse_cons, rebaseAll, List.foldlM_append, returned, okBind, List.foldlM_cons,
        restored]
      rfl

theorem fourPeriodsUndone :
    let t : Timer := ⟨true, 7, 1, 7, ⟨2, 3⟩, 4⟩
    let now : Ticks := ⟨1, 999998⟩
    t.enabled ∧ now.Normalized ∧ now ≤ t.nextMatch ∧ distances (t.togo now) 7 [10, 13, 13, 29] = [7, 9, 9, 20] ∧
      ∃ u, t.rebaseAll [10, 13, 13, 29] now = .ok u ∧ u.rebaseAll [13, 13, 10, 7] now = .ok t := by
  intro t now
  obtain ⟨u, v, ran, returned, _, _, same⟩ := @slowingUndone t now [10, 13, 13, 29] rfl
    (by decide) (by decide) (by decide) (by decide) (by decide)
  obtain rfl := same (by decide)
  exact ⟨rfl, by decide, by decide, by decide, u, ran, returned⟩

theorem loadedInstantFaults :
    let s : ClockSnapshot := ⟨⟨0, 2000000⟩, 0, 8000000, .normal, [⟨0, true, 2000000, 1, ⟨3, 0⟩⟩]⟩
    let t : Timer := ⟨true, 2000000, 1, 2000000, ⟨3, 0⟩, 0⟩
    let c : Clock := { Clock.fresh with current := ⟨0, 2000000⟩, nextId := 1, timers := [(⟨0⟩, t)] }
    SaveState.decode (SaveState.encode s) = .ok s ∧ (Clock.fresh.run .record [] [.create, .load s]).2 = .ok (c, []) ∧
      c.current ≤ t.nextMatch ∧ c.current.get ≤ t.nextMatch.get ∧ t.togo c.current = 1000000 ∧
      distances (t.togo c.current) t.period.toNat [4000000] = [2000000] ∧ c.current.get + 2000000 < Ticks.range ∧
      t.rebase 4000000 c.current = .error .subOverflow ∧
      c.perform .record [] (.setCompare ⟨0⟩ 4000000) = .error .subOverflow := by
  intro s t c
  exact ⟨SaveState.decodeEncode (by decide), by cbv, by decide, by decide, by decide, by decide, by decide, by cbv, by cbv⟩

end Timer

end RobotLink
