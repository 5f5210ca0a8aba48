import RobotLink.Proofs.ClockRuns

/-! What an operation does to the simulated time of a clock. Either the time stands still while
timers come and go and one of them is set, or a sweep services matches up to a target that is all
the ticks given so far. -/
namespace RobotLink
namespace Timer

theorem schedulableIff (t : Timer) : t.schedulable ↔ t.enabled = true ∧ 0 < t.period.toNat := by
  simp only [schedulable, Bool.and_eq_true, decide_eq_true_eq]
  rfl

def rescaled (togo old new : Nat) : Nat := (togo * new + old / 2) / old

inductive Adjusted (now : Ticks) (t u : Timer) : Prop
  | idle (off : ¬ u.schedulable) (exact : u.nextMatch = t.nextMatch ∨ u.nextMatch.Normalized)
  | kept (same : u = t)
  | whole (exact : u.nextMatch.Normalized) (next : u.nextMatch.get = now.get + u.period.toNat)
  | scaled {togo : Ticks} (on : t.schedulable) (distance : t.nextMatch.saturatingSub now = .ok togo)
      (exact : u.nextMatch.Normalized)
      (next : u.nextMatch.get =
        now.get + (clampWord (rescaled togo.get t.period.toNat u.period.toNat)).toNat)

theorem rebaseAdjusts {now : Ticks} {s t u : Timer} {period : UInt64} (h : s.rebase period now = .ok u)
    (enabled : s.enabled = t.enabled) (before : s.period = t.period) (next : s.nextMatch = t.nextMatch) :
    Adjusted now t u := by
  unfold rebase at h
  split at h
  next off =>
    cases h
    refine .idle ?_ (.inl next)
    rw [schedulableIff]
    simp_all
  next on =>
    split at h
    next =>
      obtain ⟨sum, added, same⟩ := bindOk h
      cases same
      obtain ⟨exact, total⟩ := Ticks.addCountOk added
      exact .whole exact total
    next some =>
      obtain ⟨togo, distance, h⟩ := bindOk h
      obtain ⟨product, multiplied, h⟩ := bindOk h
      obtain ⟨rounded, half, h⟩ := bindOk h
      obtain ⟨sum, added, same⟩ := bindOk h
      cases same
      obtain ⟨exact, total⟩ := Ticks.addCountOk added
      rw [addWideOk half, mulWideOk multiplied, before] at total
      rw [next] at distance
      refine .scaled ?_ distance exact total
      rw [before] at some
      have positive : 0 < t.period.toNat := Nat.pos_of_ne_zero fun zero => some (UInt64.toNat_inj.1 zero)
      rw [schedulableIff, ← enabled]
      exact ⟨by simpa using on, positive⟩

theorem enableAdjusts {now : Ticks} {t u : Timer} {enabled : Bool} (h : t.switch enabled now = .ok u) :
    Adjusted now t u := by
  unfold switch at h
  split at h
  · cases h; exact .kept rfl
  split at h
  · obtain ⟨armed, done, same⟩ := bindOk h
    cases same
    obtain ⟨next, added, same⟩ := bindOk done
    cases same
    obtain ⟨exact, total⟩ := Ticks.addCountOk added
    exact .whole exact total
  · cases h
    exact .idle (by simp [schedulable, setEnabled]) (.inl rfl)

end Timer

namespace Clock
variable {World : Type} {callback : Callback World} {c d : Clock} {world later : World}

theorem updateEntries {id : TimerId} {operation : Timer → Except Fault Timer}
    {timers after : List (TimerId × Timer)} (h : updateTimer id operation timers = .ok after) :
    ∀ entry ∈ after, entry ∈ timers ∨ ∃ t, (entry.1, t) ∈ timers ∧ operation t = .ok entry.2 := by
  induction timers generalizing after with
  | nil => cases h
  | cons head rest ih =>
    obtain ⟨other, t⟩ := head
    simp only [updateTimer] at h
    split at h
    next =>
      split at h
      next u done =>
        cases h
        intro entry member
        rcases List.mem_cons.1 member with rfl | old
        · exact .inr ⟨t, List.mem_cons_self, done⟩
        · exact .inl (List.mem_cons_of_mem _ old)
      next => cases h
    next =>
      split at h
      next timers done =>
        cases h
        intro entry member
        rcases List.mem_cons.1 member with rfl | member
        · exact .inl List.mem_cons_self
        rcases ih done entry member with old | ⟨v, old, changed⟩
        · exact .inl (List.mem_cons_of_mem _ old)
        · exact .inr ⟨v, List.mem_cons_of_mem _ old, changed⟩
      next => cases h

inductive Change (callback : Callback World) (c : Clock) (world : World) : Nat → Clock → World → Prop
  | still {d : Clock} (current : d.current = c.current) (owed : d.owed = c.owed)
      (entries : ∀ entry ∈ d.timers, entry.2 = .fresh ∨
        ∃ t, (entry.1, t) ∈ c.timers ∧ Timer.Adjusted c.current t entry.2) : Change callback c world 0 d world
  | advanced {before after d : Clock} {delta : UInt64} {outcome : Advanced} {later : World}
      (advance : before.advance callback world delta = .ok (outcome, after, later))
      (current : before.current = c.current) (owed : before.owed = c.owed) (timers : before.timers = c.timers)
      (currentAfter : d.current = after.current) (owedAfter : d.owed = after.owed)
      (timersAfter : d.timers = after.timers) : Change callback c world delta.toNat d later

def Operation.onward : Operation → Bool
  | .reset | .load _ => false
  | _ => true

def Operation.given : Operation → Outcome → Nat
  | .advance delta, _ => delta.toNat
  | .step _, .stepped summary => summary.ticks.toNat
  | _, _ => 0

theorem Change.kept (current : d.current = c.current) (owed : d.owed = c.owed) (timers : d.timers = c.timers) :
    Change callback c world 0 d world :=
  .still current owed fun entry member => .inr ⟨entry.2, timers ▸ member, .kept rfl⟩

theorem Change.settled {result : Except ClockError Clock} {outcome : Outcome}
    (h : c.settle world result = .ok (outcome, d, later))
    (changes : ∀ e, result = .ok e → Change callback c world 0 e world) : Change callback c world 0 d later := by
  unfold settle at h
  split at h
  · cases h; exact changes _ rfl
  · cases h; exact .kept rfl rfl rfl
  · cases h

theorem Change.onTimer {id : TimerId} {operation : Timer → Except Fault Timer} (h : c.onTimer id operation = .ok d)
    (adjusts : ∀ t u, operation t = .ok u → Timer.Adjusted c.current t u) : Change callback c world 0 d world := by
  obtain ⟨timers, updated, same⟩ := bindOk h
  cases same
  refine .still rfl rfl fun entry member => .inr ?_
  rcases updateEntries updated entry member with old | ⟨t, old, done⟩
  · exact ⟨entry.2, old, .kept rfl⟩
  · exact ⟨t, old, adjusts t entry.2 done⟩

theorem Change.advance {delta : UInt64} {outcome : Advanced}
    (h : c.advance callback world delta = .ok (outcome, d, later)) : Change callback c world delta.toNat d later :=
  .advanced h rfl rfl rfl rfl rfl rfl

theorem stepChanges {now : Nat} {summary : StepSummary} (h : c.step callback world now = .ok (summary, d, later)) :
    Change callback c world summary.ticks.toNat d later := by
  obtain ⟨last, outcome, after, steps⟩ | ⟨rfl, rfl, rfl | rfl⟩ := stepCases h
  · rw [steps.summary, steps.clock]
    exact .advanced steps.advance rfl rfl rfl rfl rfl rfl
  · exact .kept rfl rfl rfl
  · exact .kept rfl rfl rfl

theorem performChanges {op : Operation} {outcome : Outcome}
    (h : c.perform callback world op = .ok (outcome, d, later)) (onward : op.onward) :
    Change callback c world (op.given outcome) d later := by
  cases op with
  | create =>
    obtain ⟨⟨_, e⟩, created, same⟩ := mapOk h
    cases same
    obtain ⟨_, _, rfl⟩ := createOk created
    refine .still rfl rfl fun entry member => ?_
    rcases List.mem_append.1 member with old | new
    · exact .inr ⟨entry.2, old, .kept rfl⟩
    · rw [List.mem_singleton.1 new]
      exact .inl rfl
  | remove id =>
    refine .settled h fun e removed => ?_
    obtain rfl := removeOk removed
    exact .still rfl rfl fun entry member => .inr ⟨entry.2, List.mem_of_mem_eraseP member, .kept rfl⟩
  | enable id enabled => exact .settled h fun e done => .onTimer done fun t u => Timer.enableAdjusts
  | setCompare id compare =>
    exact .settled h fun e done => .onTimer done fun t u set => Timer.rebaseAdjusts set rfl rfl rfl
  | setPrescaler id prescaler =>
    exact .settled h fun e done => .onTimer done fun t u set => Timer.rebaseAdjusts set rfl rfl rfl
  | setCpuUsage | setTargetSpeed | stop | save =>
    cases h
    exact .kept rfl rfl rfl
  | start =>
    cases h
    unfold start
    split <;> exact .kept rfl rfl rfl
  | advance delta =>
    obtain ⟨⟨_, after, _⟩, advanced, same⟩ := mapOk h
    cases same
    exact .advance advanced
  | step now =>
    obtain ⟨_, stepped, same⟩ := mapOk h
    cases same
    exact stepChanges stepped
  | reset | load => cases onward

end Clock

end RobotLink
