import Mathlib.Data.List.Induction
import RobotLink.Proofs.StepArithmetic

/-! The windows that speed samples are of. The steps recorded since a reset are cut, from the first on, into
the shortest runs that cover a second; a sample comes with the last step of each and is the rates of its
sums, and what is summed up is the steps behind the latest. -/
namespace RobotLink
namespace SpeedStats

structure Lap where
  micros : UInt64
  timeouts : UInt64
  ticks : UInt64
  deriving DecidableEq, Repr

inductive Use where
  | record (lap : Lap)
  | reset
  deriving DecidableEq, Repr

def perform (done : List (Option SpeedSample) × SpeedStats) :
    Use → Except Fault (List (Option SpeedSample) × SpeedStats)
  | .reset => .ok (done.1, fresh)
  | .record lap => do
    let (answer, s) ← done.2.record lap.micros lap.timeouts lap.ticks
    return (done.1 ++ [answer], s)

def performAll (uses : List Use) : Except Fault (List (Option SpeedSample) × SpeedStats) :=
  uses.foldlM perform ([], fresh)

def total (part : Lap → UInt64) (laps : List Lap) : Nat := (laps.map fun lap => (part lap).toNat).sum

def spanned (laps : List Lap) : Nat := total Lap.micros laps

structure Cut where
  windows : List (List Lap)
  rest : List Lap
  deriving DecidableEq, Repr

def Cut.next (c : Cut) (lap : Lap) : Cut :=
  let opened := c.rest ++ [lap]
  if spanned opened < window.toNat then { c with rest := opened } else ⟨c.windows ++ [opened], []⟩

def Cut.parts (c : Cut) : List (List Lap) := c.windows ++ [c.rest]

def cut (laps : List Lap) : Cut := laps.foldl Cut.next ⟨[], []⟩

structure Cut.Greedy (c : Cut) (laps : List Lap) : Prop where
  whole : c.windows.flatten ++ c.rest = laps
  reached : ∀ w ∈ c.windows, window.toNat ≤ spanned w
  shortest : ∀ w ∈ c.windows, ∀ n < w.length, spanned (w.take n) < window.toNat
  below : spanned c.rest < window.toNat

structure Sessions where
  ended : List (List Lap)
  since : List Lap
  deriving DecidableEq, Repr

namespace Sessions

def next (r : Sessions) : Use → Sessions
  | .record lap => { r with since := r.since ++ [lap] }
  | .reset => ⟨r.ended ++ [r.since], []⟩

def all (r : Sessions) : List (List Lap) := r.ended ++ [r.since]

def uses (r : Sessions) : List Use :=
  r.ended.flatMap (fun laps => laps.map .record ++ [.reset]) ++ r.since.map .record

end Sessions

def sessions (uses : List Use) : Sessions := uses.foldl Sessions.next ⟨[], []⟩

structure Fits (laps : List Lap) : Prop where
  spanned : spanned laps < UInt64.size
  length : laps.length < UInt64.size
  timeouts : total Lap.timeouts laps < UInt64.size
  ticks : total Lap.ticks laps < UInt64.size

instance (laps : List Lap) : Decidable (Fits laps) :=
  decidable_of_iff (spanned laps < UInt64.size ∧ laps.length < UInt64.size ∧
      total Lap.timeouts laps < UInt64.size ∧ total Lap.ticks laps < UInt64.size)
    ⟨fun ⟨spanned, length, timeouts, ticks⟩ => ⟨spanned, length, timeouts, ticks⟩,
      fun fits => ⟨fits.spanned, fits.length, fits.timeouts, fits.ticks⟩⟩

def AllFit (uses : List Use) : Prop :=
  ∀ laps ∈ (sessions uses).all, ∀ w ∈ (cut laps).parts, Fits w
instance (uses : List Use) : Decidable (AllFit uses) := by unfold AllFit; infer_instance

def rate (w : List Lap) (sum : Nat) : UInt64 := (sum * window.toNat / spanned w).toUInt64

def rated (w : List Lap) : SpeedSample :=
  ⟨rate w w.length, rate w (total Lap.timeouts w), rate w (total Lap.ticks w), (spanned w / w.length).toUInt64⟩

def Cut.answers (c : Cut) : List (Option SpeedSample) :=
  c.windows.flatMap (fun w => List.replicate (w.length - 1) none ++ [some (rated w)]) ++
    List.replicate c.rest.length none

def Sessions.answers (r : Sessions) : List (Option SpeedSample) := r.all.flatMap fun laps => (cut laps).answers

section
variable {s : SpeedStats} {laps w : List Lap} {lap : Lap} {c : Cut}

theorem totalAppend (part : Lap → UInt64) (laps more : List Lap) :
    total part (laps ++ more) = total part laps + total part more := by
  rw [total, List.map_append, List.sum_append, total, total]

theorem totalNext (part : Lap → UInt64) (laps : List Lap) (lap : Lap) :
    total part (laps ++ [lap]) = total part laps + (part lap).toNat := by
  rw [totalAppend]
  rfl

theorem Fits.prior (fits : Fits (laps ++ [lap])) : Fits laps := by
  obtain ⟨spanned, length, timeouts, ticks⟩ := fits
  rw [SpeedStats.spanned, totalNext] at spanned
  rw [List.length_append, List.length_singleton] at length
  rw [totalNext] at timeouts ticks
  exact ⟨Nat.lt_of_le_of_lt (Nat.le_add_right _ _) spanned, Nat.lt_of_succ_lt length,
    Nat.lt_of_le_of_lt (Nat.le_add_right _ _) timeouts, Nat.lt_of_le_of_lt (Nat.le_add_right _ _) ticks⟩

/-! The greedy cut. -/

theorem Cut.nextBelow (below : spanned (c.rest ++ [lap]) < window.toNat) : c.next lap = ⟨c.windows, c.rest ++ [lap]⟩ :=
  if_pos below

theorem Cut.nextReached (reached : window.toNat ≤ spanned (c.rest ++ [lap])) :
    c.next lap = ⟨c.windows ++ [c.rest ++ [lap]], []⟩ :=
  if_neg (Nat.not_lt.2 reached)

theorem cutNext (laps : List Lap) (lap : Lap) : cut (laps ++ [lap]) = (cut laps).next lap :=
  List.foldl_concat ..

theorem Cut.Greedy.next (greedy : c.Greedy laps) (lap : Lap) : (c.next lap).Greedy (laps ++ [lap]) := by
  have whole : c.windows.flatten ++ (c.rest ++ [lap]) = laps ++ [lap] := by
    rw [← List.append_assoc, greedy.whole]
  rcases Nat.lt_or_ge (spanned (c.rest ++ [lap])) window.toNat with below | reached
  · rw [Cut.nextBelow below]
    exact ⟨whole, greedy.reached, greedy.shortest, below⟩
  · rw [Cut.nextReached reached]
    refine ⟨?_, ?_, ?_, show spanned [] < window.toNat by decide⟩
    · rw [List.flatten_append, List.append_nil, List.flatten_singleton]
      exact whole
    · exact List.forall_mem_append.2 ⟨greedy.reached, List.forall_mem_singleton.2 reached⟩
    · refine List.forall_mem_append.2 ⟨greedy.shortest, List.forall_mem_singleton.2 fun n short => ?_⟩
      rw [List.length_append, List.length_singleton] at short
      rw [List.take_append_of_le_length (Nat.le_of_lt_succ short)]
      refine Nat.lt_of_le_of_lt ?_ greedy.below
      conv => rhs; rw [← List.take_append_drop n c.rest, spanned, totalAppend]
      exact Nat.le_add_right _ _

theorem cutGreedy (laps : List Lap) : (cut laps).Greedy laps := by
  induction laps using List.reverseRecOn with
  | nil => exact ⟨rfl, nofun, nofun, by decide⟩
  | append_singleton laps lap ih =>
    rw [cutNext]
    exact ih.next lap

theorem nextsBelow (windows : List (List Lap)) (opened : List Lap) {more : List Lap}
    (below : spanned (opened ++ more) < window.toNat) :
    more.foldl Cut.next ⟨windows, opened⟩ = ⟨windows, opened ++ more⟩ := by
  induction more generalizing opened with
  | nil => rw [List.foldl_nil, List.append_nil]
  | cons lap more ih =>
    rw [List.append_cons] at below ⊢
    have first : spanned (opened ++ [lap]) < window.toNat := by
      refine Nat.lt_of_le_of_lt ?_ below
      conv => rhs; rw [spanned, totalAppend]
      exact Nat.le_add_right _ _
    rw [List.foldl_cons, Cut.nextBelow first]
    exact ih _ below

theorem nextsWindow (windows : List (List Lap)) (reached : window.toNat ≤ spanned w)
    (shortest : ∀ n < w.length, spanned (w.take n) < window.toNat) :
    w.foldl Cut.next ⟨windows, []⟩ = ⟨windows ++ [w], []⟩ := by
  rcases List.eq_nil_or_concat' w with rfl | ⟨front, lap, rfl⟩
  · exact absurd reached (by decide)
  · have below := shortest front.length (by simp)
    rw [List.take_left] at below
    rw [List.foldl_concat, nextsBelow windows [] below]
    exact Cut.nextReached reached

theorem Cut.Greedy.unique (greedy : c.Greedy laps) : c = cut laps := by
  have all (before : List (List Lap)) (later : List (List Lap)) (reached : ∀ w ∈ later, window.toNat ≤ spanned w)
      (shortest : ∀ w ∈ later, ∀ n < w.length, spanned (w.take n) < window.toNat) :
      later.flatten.foldl Cut.next ⟨before, []⟩ = ⟨before ++ later, []⟩ := by
    induction later generalizing before with
    | nil => rw [List.flatten_nil, List.foldl_nil, List.append_nil]
    | cons w later ih =>
      obtain ⟨own, others⟩ := List.forall_mem_cons.1 reached
      obtain ⟨ownShortest, othersShortest⟩ := List.forall_mem_cons.1 shortest
      rw [List.flatten_cons, List.foldl_append, nextsWindow before own ownShortest, ih _ others othersShortest,
        ← List.append_cons]
  rw [cut, ← greedy.whole, List.foldl_append, all [] _ greedy.reached greedy.shortest,
    nextsBelow _ [] greedy.below]
  rfl

/-! Samples. -/

structure Rated (w : List Lap) (sample : SpeedSample) : Prop where
  span : 0 < spanned w
  count : 0 < w.length
  products : ∀ sum ∈ [w.length, total Lap.timeouts w, total Lap.ticks w], sum * window.toNat < wideSize
  narrowed : ∀ sum ∈ [w.length, total Lap.timeouts w, total Lap.ticks w], sum * window.toNat / spanned w ≤ sum
  runs : sample.runsPerSecond.toNat = w.length * window.toNat / spanned w
  timeouts : sample.timeoutsPerSecond.toNat = total Lap.timeouts w * window.toNat / spanned w
  ticks : sample.ticksPerSecond.toNat = total Lap.ticks w * window.toNat / spanned w
  mean : sample.meanDelta.toNat = spanned w / w.length

theorem rateLe (reached : window.toNat ≤ spanned w) (sum : Nat) : sum * window.toNat / spanned w ≤ sum := by
  apply Nat.div_le_of_le_mul
  rw [Nat.mul_comm]
  exact Nat.mul_le_mul_right _ reached

theorem rateExact (reached : window.toNat ≤ spanned w) {sum : Nat} (fits : sum < UInt64.size) :
    (rate w sum).toNat = sum * window.toNat / spanned w :=
  UInt64.toNat_ofNat_of_lt (Nat.lt_of_le_of_lt (rateLe reached sum) fits)

theorem ratedExact (fits : Fits w) (reached : window.toNat ≤ spanned w) : Rated w (rated w) := by
  have length : 0 < w.length := by
    refine List.length_pos_iff.2 fun none => ?_
    rw [none] at reached
    exact absurd reached (by decide)
  have sums : ∀ sum ∈ [w.length, total Lap.timeouts w, total Lap.ticks w], sum < UInt64.size := by
    simpa using ⟨fits.length, fits.timeouts, fits.ticks⟩
  refine ⟨Nat.lt_of_lt_of_le (by decide) reached, length, fun sum member => ?_, fun sum _ => rateLe reached sum,
    rateExact reached fits.length, rateExact reached fits.timeouts, rateExact reached fits.ticks, ?_⟩
  · exact Nat.lt_of_le_of_lt (Nat.mul_le_mul_right _ (Nat.le_of_lt (sums sum member))) (by decide)
  · exact UInt64.toNat_ofNat_of_lt (Nat.lt_of_le_of_lt (Nat.div_le_self _ _) fits.spanned)

structure Holds (s : SpeedStats) (laps : List Lap) : Prop where
  delta : s.delta.toNat = spanned laps
  runs : s.runs.toNat = laps.length
  timeouts : s.timeouts.toNat = total Lap.timeouts laps
  ticks : s.ticks.toNat = total Lap.ticks laps

theorem Holds.room (holds : s.Holds laps) (fits : Fits (laps ++ [lap])) :
    s.HasRoom lap.micros lap.timeouts lap.ticks := by
  obtain ⟨spanned, length, timeouts, ticks⟩ := fits
  rw [SpeedStats.spanned, totalNext] at spanned
  rw [List.length_append, List.length_singleton] at length
  rw [totalNext] at timeouts ticks
  exact ⟨holds.delta ▸ spanned, holds.runs ▸ length, holds.timeouts ▸ timeouts, holds.ticks ▸ ticks⟩

theorem Holds.summed (holds : s.Holds laps) (fits : Fits (laps ++ [lap])) :
    (s.summed lap.micros lap.timeouts lap.ticks).Holds (laps ++ [lap]) := by
  have room := holds.room fits
  refine ⟨?_, ?_, ?_, ?_⟩
  · rw [spanned, totalNext]
    exact (toNatAddWord (addWordMeets room.delta)).trans (congrArg (· + _) holds.delta)
  · rw [List.length_append]
    exact (toNatAddWord (addWordMeets (b := 1) room.runs)).trans (congrArg (· + 1) holds.runs)
  · rw [totalNext]
    exact (toNatAddWord (addWordMeets room.timeouts)).trans (congrArg (· + _) holds.timeouts)
  · rw [totalNext]
    exact (toNatAddWord (addWordMeets room.ticks)).trans (congrArg (· + _) holds.ticks)

theorem Holds.sample (holds : s.Holds w) : s.sample = rated w := by
  have mean : s.delta / s.runs = (spanned w / w.length).toUInt64 := by
    rw [← holds.delta, ← holds.runs]
    exact UInt64.ofNat_toNat.symm
  simp only [SpeedStats.sample, rated, rate, perSecond, mean, holds.delta, holds.runs, holds.timeouts, holds.ticks]

structure Follows (s : SpeedStats) (c : Cut) : Prop where
  holds : s.Holds c.rest
  last : s.last = c.windows.getLast?.map rated

theorem Follows.record (follows : s.Follows c) (fits : Fits (c.rest ++ [lap])) :
    ∃ answer next, s.record lap.micros lap.timeouts lap.ticks = .ok (answer, next) ∧
      (c.next lap).answers = c.answers ++ [answer] ∧ next.Follows (c.next lap) := by
  have summed := follows.holds.summed fits
  rw [(follows.holds.room fits).record]
  rcases Nat.lt_or_ge (spanned (c.rest ++ [lap])) window.toNat with below | reached
  · have small : (s.summed lap.micros lap.timeouts lap.ticks).delta < window := by
      rw [UInt64.lt_iff_toNat_lt, summed.delta]
      exact below
    rw [if_pos small, Cut.nextBelow below]
    refine ⟨_, _, rfl, ?_, summed, follows.last⟩
    simp only [Cut.answers, List.length_append, List.length_singleton, List.replicate_succ', List.append_assoc]
  · have large : ¬ (s.summed lap.micros lap.timeouts lap.ticks).delta < window := by
      rw [UInt64.lt_iff_toNat_lt, summed.delta]
      exact Nat.not_lt.2 reached
    rw [if_neg large, summed.sample, Cut.nextReached reached]
    refine ⟨_, _, rfl, ?_, ⟨rfl, rfl, rfl, rfl⟩, ?_⟩
    · simp [Cut.answers]
    · simp

end

/-! Runs of records and resets. -/

section
variable {uses : List Use} {use : Use}

theorem sessionsNext (uses : List Use) (use : Use) : sessions (uses ++ [use]) = (sessions uses).next use :=
  List.foldl_concat ..

theorem sessionsUses (uses : List Use) : (sessions uses).uses = uses := by
  induction uses using List.reverseRecOn with
  | nil => rfl
  | append_singleton uses use ih =>
    rw [sessionsNext]
    conv => rhs; rw [← ih]
    cases use <;> simp [Sessions.next, Sessions.uses]

theorem Cut.fitsPrior {c : Cut} {lap : Lap} (fits : ∀ w ∈ (c.next lap).parts, Fits w) :
    Fits (c.rest ++ [lap]) ∧ ∀ w ∈ c.parts, Fits w := by
  have both : (∀ w ∈ c.windows, Fits w) ∧ Fits (c.rest ++ [lap]) := by
    rcases Nat.lt_or_ge (spanned (c.rest ++ [lap])) window.toNat with below | reached
    · rw [Cut.nextBelow below] at fits
      obtain ⟨windows, rest⟩ := List.forall_mem_append.1 fits
      exact ⟨windows, List.forall_mem_singleton.1 rest⟩
    · rw [Cut.nextReached reached] at fits
      obtain ⟨windows, last⟩ := List.forall_mem_append.1 (List.forall_mem_append.1 fits).1
      exact ⟨windows, List.forall_mem_singleton.1 last⟩
  exact ⟨both.2, List.forall_mem_append.2 ⟨both.1, List.forall_mem_singleton.2 both.2.prior⟩⟩

theorem AllFit.since (fits : AllFit uses) : ∀ w ∈ (cut (sessions uses).since).parts, Fits w :=
  fits _ (List.mem_append_right _ (List.mem_singleton_self _))

theorem AllFit.prior (fits : AllFit (uses ++ [use])) : AllFit uses := by
  have since := fits.since
  unfold AllFit at *
  rw [sessionsNext] at fits since
  cases use with
  | reset => exact fun laps member => fits laps (List.mem_append_left _ member)
  | record lap =>
    simp only [Sessions.next, cutNext] at since
    exact List.forall_mem_append.2
      ⟨(List.forall_mem_append.1 fits).1, List.forall_mem_singleton.2 (Cut.fitsPrior since).2⟩

theorem performAllNext (uses : List Use) (use : Use) :
    performAll (uses ++ [use]) = performAll uses >>= fun done => perform done use := by
  simp only [performAll, List.foldlM_append, List.foldlM_cons, List.foldlM_nil, bind_pure]

theorem performAllFollows (fits : AllFit uses) :
    ∃ s, performAll uses = .ok ((sessions uses).answers, s) ∧ s.Follows (cut (sessions uses).since) := by
  induction uses using List.reverseRecOn with
  | nil => exact ⟨fresh, rfl, ⟨rfl, rfl, rfl, rfl⟩, rfl⟩
  | append_singleton uses use ih =>
    obtain ⟨s, ran, follows⟩ := ih fits.prior
    rw [performAllNext, ran, okBind, sessionsNext]
    cases use with
    | reset =>
      refine ⟨fresh, ?_, ⟨rfl, rfl, rfl, rfl⟩, rfl⟩
      simp only [perform, Sessions.next, Sessions.answers, Sessions.all, List.flatMap_append, List.flatMap_singleton]
      exact congrArg (fun answers => Except.ok (answers, fresh)) (List.append_nil _).symm
    | record lap =>
      have since := fits.since
      rw [sessionsNext] at since
      simp only [Sessions.next, cutNext] at since ⊢
      obtain ⟨answer, next, recorded, answers, onward⟩ := follows.record (Cut.fitsPrior since).1
      refine ⟨next, ?_, onward⟩
      simp only [perform, recorded, okBind, Sessions.answers, Sessions.all, List.flatMap_append,
        List.flatMap_singleton, cutNext, answers, List.append_assoc]
      rfl

/-- The steps recorded since a reset are cut greedily, and in one way only. A record that covers a second with
those before it answers with the sample of the window that it closes, any other with none; the rates are
exact, and the latest sample is that of the latest window since the latest reset. -/
theorem windowsSampled (fits : AllFit uses) :
    (sessions uses).uses = uses ∧
      (∀ (laps : List Lap) (c : Cut), c.Greedy laps ↔ c = cut laps) ∧
      (∃ s, performAll uses = .ok ((sessions uses).answers, s) ∧
        s.last = (cut (sessions uses).since).windows.getLast?.map rated) ∧
      ∀ laps ∈ (sessions uses).all, ∀ w ∈ (cut laps).windows, Rated w (rated w) := by
  refine ⟨sessionsUses uses, fun laps c => ⟨Cut.Greedy.unique, fun same => same ▸ cutGreedy laps⟩, ?_, ?_⟩
  · obtain ⟨s, ran, follows⟩ := performAllFollows fits
    exact ⟨s, ran, follows.last⟩
  · intro laps member w complete
    exact ratedExact (fits laps member w (List.mem_append_left _ complete)) ((cutGreedy laps).reached w complete)

theorem resetWindowDropped :
    let uses : List Use :=
      [.record ⟨0, 1, 0⟩, .record ⟨2500000, 4, 16000000⟩, .record ⟨400000, 3, 100⟩, .reset, .record ⟨999999, 7, 0⟩,
        .record ⟨1, 0, 5⟩, .record ⟨999999, 9, 9⟩]
    AllFit uses ∧ ∃ s, performAll uses =
        .ok ([none, some ⟨0, 2, 6400000, 1250000⟩, none, none, some ⟨2, 7, 5, 500000⟩, none], s) ∧
      s.last = some ⟨2, 7, 5, 500000⟩ ∧ Rated [⟨999999, 7, 0⟩, ⟨1, 0, 5⟩] ⟨2, 7, 5, 500000⟩ := by
  intro uses
  have fits : AllFit uses := by decide +kernel
  obtain ⟨_, _, ⟨s, ran, last⟩, exact⟩ := windowsSampled fits
  have answers : (sessions uses).answers =
      [none, some ⟨0, 2, 6400000, 1250000⟩, none, none, some ⟨2, 7, 5, 500000⟩, none] := by decide +kernel
  have latest : (cut (sessions uses).since).windows.getLast?.map rated = some ⟨2, 7, 5, 500000⟩ := by decide +kernel
  have sample : rated [⟨999999, 7, 0⟩, ⟨1, 0, 5⟩] = ⟨2, 7, 5, 500000⟩ := by decide +kernel
  refine ⟨fits, s, answers ▸ ran, last.trans latest, ?_⟩
  rw [← sample]
  exact exact [⟨999999, 7, 0⟩, ⟨1, 0, 5⟩, ⟨999999, 9, 9⟩] (by decide) _ (by decide +kernel)

end

end SpeedStats
end RobotLink
