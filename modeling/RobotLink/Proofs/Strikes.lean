import RobotLink.Clock.Advance
import RobotLink.Proofs.TickArithmetic

/-! Timers matching one after the other. Whatever ends a step, the matches before its end are
those of always taking the earliest one: in order of time, each timer's own at equal distances,
and none of them left out. -/
namespace RobotLink

theorem Timer.rearmMeets {t u : Timer} (h : t.countMatch.rearm = .ok u) :
    ∃ next : Ticks, u = { t with nextMatch := next, fires := t.fires + 1 } ∧ next.Normalized ∧
      next.get = t.nextMatch.get + t.period.toNat := by
  unfold Timer.rearm at h
  cases next : t.countMatch.nextMatch.addCount t.countMatch.period with
  | error f => simp [next, bind, Except.bind] at h
  | ok n =>
    simp only [next, bind, Except.bind, pure, Except.pure, Except.ok.injEq] at h
    subst h
    exact ⟨n, rfl, Ticks.addNormalized next, Ticks.getAddCount next⟩

namespace Clock

theorem earliestNone {timers : List (TimerId × Timer)} (h : earliest? timers = none) :
    ∀ entry ∈ timers, ¬ entry.2.schedulable := by
  induction timers with
  | nil => intro entry member; cases member
  | cons head rest ih =>
    unfold earliest? at h
    split at h
    next later =>
      split at h
      next => cases h
      next idle =>
        intro entry member
        rcases List.mem_cons.1 member with rfl | member
        · exact idle
        · exact ih later entry member
    next => split at h <;> cases h

theorem earliestLeast {timers : List (TimerId × Timer)} {i : Nat} {id : TimerId} {t : Timer}
    (h : earliest? timers = some (i, id, t)) (normalized : ∀ entry ∈ timers, entry.2.nextMatch.Normalized)
    {j : Nat} {other : TimerId} {u : Timer} (place : timers[j]? = some (other, u)) (schedulable : u.schedulable) :
    t.nextMatch.get < u.nextMatch.get ∨ t.nextMatch.get = u.nextMatch.get ∧ i ≤ j := by
  induction timers generalizing i j id t with
  | nil => cases h
  | cons head rest ih =>
    obtain ⟨first, v⟩ := head
    have headNormalized : v.nextMatch.Normalized := normalized (first, v) List.mem_cons_self
    have restNormalized := fun entry member => normalized entry (List.mem_cons_of_mem _ member)
    unfold earliest? at h
    split at h
    next later =>
      split at h
      next =>
        cases h
        cases j with
        | zero => cases place; exact .inr ⟨rfl, Nat.le_refl _⟩
        | succ j => exact absurd schedulable (earliestNone later _ (List.mem_of_getElem? place))
      next => cases h
    next k rival w later =>
      have rivalNormalized : w.nextMatch.Normalized := restNormalized _ (List.mem_of_getElem? (earliestAt later).1)
      split at h
      next both =>
        cases h
        cases j with
        | zero => cases place; exact .inr ⟨rfl, Nat.le_refl _⟩
        | succ j =>
          have notLater := (Ticks.leGet headNormalized rivalNormalized).1 both.2
          have order := ih later restNormalized place
          omega
      next lost =>
        cases h
        cases j with
        | zero =>
          cases place
          rw [Ticks.leGet headNormalized rivalNormalized] at lost
          have earlier := Nat.lt_of_not_le fun notLater => lost ⟨schedulable, notLater⟩
          omega
        | succ j =>
          have order := ih later restNormalized place
          omega

structure Strike where
  position : Nat
  timer : TimerId
  instant : Ticks
  deriving DecidableEq, Repr

namespace Strike

def Before (a b : Strike) : Prop :=
  a.instant.get < b.instant.get ∨ a.instant.get = b.instant.get ∧ a.position < b.position

def OnSchedule (timers : List (TimerId × Timer)) (s : Strike) : Prop :=
  ∃ t k, timers[s.position]? = some (s.timer, t) ∧ t.schedulable ∧ s.instant.Normalized ∧
    s.instant.get = t.nextMatch.get + k * t.period.toNat

end Strike

inductive Strikes : List (TimerId × Timer) → List Strike → List (TimerId × Timer) → Prop where
  | none (timers : List (TimerId × Timer)) : Strikes timers [] timers
  | next {timers after : List (TimerId × Timer)} {i : Nat} {id : TimerId} {t u : Timer} {strikes : List Strike}
      (found : earliest? timers = some (i, id, t)) (rearmed : t.countMatch.rearm = .ok u)
      (rest : Strikes (timers.set i (id, u)) strikes after) :
      Strikes timers (⟨i, id, t.nextMatch⟩ :: strikes) after

def NothingDue (target : Nat) (timers : List (TimerId × Timer)) : Prop :=
  ∀ entry ∈ timers, entry.2.schedulable → target < entry.2.nextMatch.get

section
variable {timers after : List (TimerId × Timer)} {strikes : List Strike} {i : Nat} {id : TimerId} {t u : Timer}

theorem normalizedSet (normalized : ∀ entry ∈ timers, entry.2.nextMatch.Normalized)
    (rearmed : t.countMatch.rearm = .ok u) : ∀ entry ∈ timers.set i (id, u), entry.2.nextMatch.Normalized := by
  intro entry member
  rcases List.mem_or_eq_of_mem_set member with member | rfl
  · exact normalized entry member
  · obtain ⟨next, rfl, exact, _⟩ := Timer.rearmMeets rearmed
    exact exact

theorem rearmedAt (found : earliest? timers = some (i, id, t)) : (timers.set i (id, u))[i]? = some (id, u) := by
  obtain ⟨inside, _⟩ := List.getElem?_eq_some_iff.1 (earliestAt found).1
  exact List.getElem?_set_self inside

theorem somethingDue {target : Nat} (found : earliest? timers = some (i, id, t)) (due : t.nextMatch.get ≤ target) :
    ¬ NothingDue target timers := by
  intro nothing
  obtain ⟨place, schedulable⟩ := earliestAt found
  have later : target < t.nextMatch.get := nothing (id, t) (List.mem_of_getElem? place) schedulable
  omega

theorem strikesNormalized (h : Strikes timers strikes after)
    (normalized : ∀ entry ∈ timers, entry.2.nextMatch.Normalized) :
    (∀ s ∈ strikes, s.instant.Normalized) ∧ ∀ entry ∈ after, entry.2.nextMatch.Normalized := by
  induction h with
  | none timers => exact ⟨fun s member => (List.not_mem_nil member).elim, normalized⟩
  | next found rearmed rest ih =>
    obtain ⟨instants, left⟩ := ih (normalizedSet normalized rearmed)
    refine ⟨?_, left⟩
    intro s member
    rcases List.mem_cons.1 member with rfl | member
    · exact normalized _ (List.mem_of_getElem? (earliestAt found).1)
    · exact instants s member

theorem onScheduleNext (found : earliest? timers = some (i, id, t)) (rearmed : t.countMatch.rearm = .ok u)
    (normalized : ∀ entry ∈ timers, entry.2.nextMatch.Normalized) (s : Strike) :
    s.OnSchedule timers ↔ s = ⟨i, id, t.nextMatch⟩ ∨ s.OnSchedule (timers.set i (id, u)) := by
  obtain ⟨next, rfl, _, moved⟩ := Timer.rearmMeets rearmed
  obtain ⟨place, schedulable⟩ := earliestAt found
  have first : t.nextMatch.Normalized := normalized _ (List.mem_of_getElem? place)
  constructor
  · rintro ⟨v, k, own, takesPart, exact, instant⟩
    by_cases here : s.position = i
    · rw [here, place] at own
      cases own
      cases k with
      | zero =>
        rw [Nat.zero_mul, Nat.add_zero] at instant
        have sameInstant := Ticks.getInjective exact first instant
        cases s
        cases here
        cases sameInstant
        exact .inl rfl
      | succ k =>
        refine .inr ⟨{ t with nextMatch := next, fires := t.fires + 1 }, k, ?_, takesPart, exact, ?_⟩
        · rw [here]
          exact rearmedAt found
        · change s.instant.get = next.get + k * t.period.toNat
          rw [instant, moved, Nat.succ_mul]
          omega
    · refine .inr ⟨v, k, ?_, takesPart, exact, instant⟩
      rw [List.getElem?_set_ne (Ne.symm here)]
      exact own
  · rintro (rfl | ⟨v, k, own, takesPart, exact, instant⟩)
    · exact ⟨t, 0, place, schedulable, first, by rw [Nat.zero_mul, Nat.add_zero]⟩
    · by_cases here : s.position = i
      · rw [here, rearmedAt found] at own
        cases own
        have sum : s.instant.get = next.get + k * t.period.toNat := instant
        refine ⟨t, k + 1, by rw [here]; exact place, schedulable, exact, ?_⟩
        rw [sum, moved, Nat.succ_mul]
        omega
      · rw [List.getElem?_set_ne (Ne.symm here)] at own
        exact ⟨v, k, own, takesPart, exact, instant⟩

theorem beforeLater (found : earliest? timers = some (i, id, t)) (rearmed : t.countMatch.rearm = .ok u)
    (normalized : ∀ entry ∈ timers, entry.2.nextMatch.Normalized) {s : Strike}
    (later : s.OnSchedule (timers.set i (id, u))) : Strike.Before ⟨i, id, t.nextMatch⟩ s := by
  obtain ⟨next, rfl, _, moved⟩ := Timer.rearmMeets rearmed
  obtain ⟨_, schedulable⟩ := earliestAt found
  obtain ⟨v, k, own, takesPart, _, instant⟩ := later
  simp only [Strike.Before]
  by_cases here : s.position = i
  · rw [here, rearmedAt found] at own
    cases own
    simp only [Timer.schedulable, Bool.and_eq_true, decide_eq_true_eq] at schedulable
    have positive : 0 < t.period.toNat := schedulable.2
    have sum : s.instant.get = next.get + k * t.period.toNat := instant
    omega
  · rw [List.getElem?_set_ne (Ne.symm here)] at own
    have order := earliestLeast found normalized own takesPart
    omega

theorem strikesListed {target : Nat} (h : Strikes timers strikes after)
    (normalized : ∀ entry ∈ timers, entry.2.nextMatch.Normalized)
    (due : ∀ s ∈ strikes, s.instant.get ≤ target) (nothing : NothingDue target after) :
    strikes.Pairwise Strike.Before ∧ ∀ s, s ∈ strikes ↔ s.OnSchedule timers ∧ s.instant.get ≤ target := by
  induction h with
  | none timers =>
    refine ⟨.nil, fun s => ⟨fun member => (List.not_mem_nil member).elim, ?_⟩⟩
    rintro ⟨⟨t, k, place, schedulable, _, instant⟩, early⟩
    have late : target < t.nextMatch.get := nothing (s.timer, t) (List.mem_of_getElem? place) schedulable
    omega
  | next found rearmed rest ih =>
    obtain ⟨early, others⟩ := List.forall_mem_cons.1 due
    obtain ⟨ordered, listed⟩ := ih (normalizedSet normalized rearmed) others nothing
    refine ⟨.cons ?_ ordered, ?_⟩
    · intro s member
      exact beforeLater found rearmed normalized ((listed s).1 member).1
    · intro s
      rw [List.mem_cons, listed, onScheduleNext found rearmed normalized]
      constructor
      · rintro (rfl | ⟨later, within⟩)
        · exact ⟨.inl rfl, early⟩
        · exact ⟨.inr later, within⟩
      · rintro ⟨rfl | later, within⟩
        · exact .inl rfl
        · exact .inr ⟨later, within⟩

theorem strikesNone (h : Strikes timers [] after) : after = timers := by
  cases h
  rfl

theorem strikesLength (h : Strikes timers strikes after) : after.length = timers.length := by
  induction h with
  | none timers => rfl
  | next found rearmed rest ih => rw [ih, List.length_set]

theorem strikesSpare (h : Strikes timers strikes after) (place : timers[i]? = some (id, t))
    (idle : ¬ t.schedulable) : after[i]? = some (id, t) := by
  induction h with
  | none timers => exact place
  | @next _ _ j _ _ _ _ found rearmed rest ih =>
    apply ih
    by_cases here : j = i
    · rw [here] at found
      have same := (earliestAt found).1.symm.trans place
      cases same
      exact absurd (earliestAt found).2 idle
    · rw [List.getElem?_set_ne here]
      exact place

theorem strikesService {target : Nat} (h : Strikes timers strikes after)
    (due : ∀ s ∈ strikes, s.instant.get ≤ target) (place : timers[i]? = some (id, t)) :
    ∃ next : Ticks,
      after[i]? = some (id, { t with nextMatch := next, fires := t.fires + strikes.countP (·.position = i) }) ∧
      next.get = t.nextMatch.get + strikes.countP (·.position = i) * t.period.toNat ∧
      ∀ k < strikes.countP (·.position = i), t.nextMatch.get + k * t.period.toNat ≤ target := by
  induction h generalizing t with
  | none timers =>
    refine ⟨t.nextMatch, place, by simp, ?_⟩
    intro k below
    cases below
  | @next _ _ j _ v _ strikes found rearmed rest ih =>
    obtain ⟨early, later⟩ := List.forall_mem_cons.1 due
    by_cases here : j = i
    · rw [here] at found ih
      have same := (earliestAt found).1.symm.trans place
      cases same
      obtain ⟨second, rfl, _, period⟩ := Timer.rearmMeets rearmed
      obtain ⟨next, left, moved, earlier⟩ := ih later (rearmedAt found)
      dsimp only at moved earlier
      have first : v.nextMatch.get ≤ target := early
      rw [List.countP_cons_of_pos (by simpa using here)]
      refine ⟨next, ?_, ?_, ?_⟩
      · rw [left, Nat.add_assoc, Nat.add_comm 1]
      · rw [moved, period, Nat.succ_mul]
        omega
      · intro k below
        cases k with
        | zero => omega
        | succ k =>
          have own := earlier k (by omega)
          rw [Nat.succ_mul]
          omega
    · rw [List.countP_cons_of_neg (by simpa using here)]
      exact ih later (by rw [List.getElem?_set_ne here]; exact place)

theorem strikesPrefix {target : Nat} {more : List Strike} {last : List (TimerId × Timer)}
    (h : Strikes timers strikes after) (due : ∀ s ∈ strikes, s.instant.get ≤ target)
    (whole : Strikes timers more last) (nothing : NothingDue target last) :
    ∃ later, more = strikes ++ later ∧ Strikes after later last := by
  induction h generalizing more with
  | none timers => exact ⟨more, rfl, whole⟩
  | next found rearmed rest ih =>
    obtain ⟨early, others⟩ := List.forall_mem_cons.1 due
    cases whole with
    | none => exact absurd nothing (somethingDue found early)
    | next sameFound sameRearmed sameRest =>
      rw [found] at sameFound
      cases sameFound
      rw [rearmed] at sameRearmed
      cases sameRearmed
      obtain ⟨later, joined, tail⟩ := ih others sameRest
      exact ⟨later, by rw [joined]; rfl, tail⟩

theorem strikesOver {target : Nat} (h : Strikes timers strikes after) (due : ∀ s ∈ strikes, s.instant.get ≤ target)
    (nothing : NothingDue target timers) : strikes = [] ∧ after = timers := by
  cases h with
  | none => exact ⟨rfl, rfl⟩
  | next found rearmed rest =>
    obtain ⟨early, _⟩ := List.forall_mem_cons.1 due
    exact absurd nothing (somethingDue found early)

theorem strikesAppend {more : List Strike} {last : List (TimerId × Timer)} (h : Strikes timers strikes after)
    (later : Strikes after more last) : Strikes timers (strikes ++ more) last := by
  induction h with
  | none timers => exact later
  | next found rearmed rest ih => exact .next found rearmed (ih later)

end

end Clock

end RobotLink
