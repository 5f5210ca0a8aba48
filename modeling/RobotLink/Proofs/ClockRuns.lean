import RobotLink.Clock.Snapshot
import RobotLink.Proofs.Advances

/-! Operations on a clock, one after the other. Whatever they are and whatever is loaded on the
way, the ids of its timers ascend and stay below the next one, and each period is the product of
its compare value and prescaler. -/
namespace RobotLink
namespace Timer

def Proportioned (t : Timer) : Prop := t.period = periodOf t.compare t.prescaler

theorem rebaseOk {t u : Timer} {period : UInt64} {now : Ticks} (h : t.rebase period now = .ok u) :
    ∃ next, u = { t with period, nextMatch := next } := by
  unfold rebase at h
  split at h
  · cases h; exact ⟨t.nextMatch, rfl⟩
  split at h
  · obtain ⟨next, _, same⟩ := bindOk h
    cases same
    exact ⟨next, rfl⟩
  · obtain ⟨_, _, h⟩ := bindOk h
    obtain ⟨_, _, h⟩ := bindOk h
    obtain ⟨_, _, h⟩ := bindOk h
    obtain ⟨next, _, same⟩ := bindOk h
    cases same
    exact ⟨next, rfl⟩

theorem armOk {t u : Timer} {now : Ticks} (h : t.arm now = .ok u) : ∃ next, u = { t with nextMatch := next } := by
  obtain ⟨next, _, same⟩ := bindOk h
  cases same
  exact ⟨next, rfl⟩

def switch (t : Timer) (enabled : Bool) (now : Ticks) : Except Fault Timer :=
  if t.enabled = enabled then .ok t
  else if enabled then do return (← t.arm now).setEnabled true
  else .ok (t.setEnabled false)

end Timer

namespace Clock
variable {World : Type}

inductive Operation where
  | create
  | remove (id : TimerId)
  | enable (id : TimerId) (enabled : Bool)
  | setCompare (id : TimerId) (compare : UInt32)
  | setPrescaler (id : TimerId) (prescaler : UInt32)
  | setCpuUsage (usage : CpuUsage)
  | setTargetSpeed (hertz : UInt64)
  | start
  | stop
  | reset
  | advance (delta : UInt64)
  | step (now : Nat)
  | save
  | load (saved : ClockSnapshot)
  deriving DecidableEq, Repr

inductive Outcome where
  | done
  | unknownTimer (id : TimerId)
  | created (id : TimerId)
  | advanced (outcome : Advanced)
  | stepped (summary : StepSummary)
  | saved (s : ClockSnapshot)
  | loaded (skipped : Nat)
  deriving DecidableEq, Repr

def settle (c : Clock) (world : World) : Except ClockError Clock → Except Fault (Outcome × Clock × World)
  | .ok d => .ok (.done, d, world)
  | .error (.unknownTimer id) => .ok (.unknownTimer id, c, world)
  | .error (.fault f) => .error f

def perform (callback : Callback World) (c : Clock) (world : World) :
    Operation → Except Fault (Outcome × Clock × World)
  | .create => c.createTimer.map fun (id, d) => (.created id, d, world)
  | .remove id => c.settle world (c.removeTimer id)
  | .enable id enabled => c.settle world (c.enableTimer id enabled)
  | .setCompare id compare => c.settle world (c.setCompare id compare)
  | .setPrescaler id prescaler => c.settle world (c.setPrescaler id prescaler)
  | .setCpuUsage usage => .ok (.done, c.setCpuUsage usage, world)
  | .setTargetSpeed hertz => .ok (.done, c.setTargetSpeed hertz, world)
  | .start => .ok (.done, c.start, world)
  | .stop => .ok (.done, c.stop, world)
  | .reset => .ok (.done, c.reset, world)
  | .advance delta => (c.advance callback world delta).map fun (a, d, world) => (.advanced a, d, world)
  | .step now => (c.step callback world now).map fun (s, d, world) => (.stepped s, d, world)
  | .save => .ok (.saved c.save, c, world)
  | .load saved => .ok (.loaded (c.load saved).1, (c.load saved).2, world)

def Operation.setting? : Operation → Option (TimerId × (Ticks → Timer → Except Fault Timer))
  | .enable id enabled => some (id, fun now t => t.switch enabled now)
  | .setCompare id compare => some (id, fun now t => t.setCompare compare now)
  | .setPrescaler id prescaler => some (id, fun now t => t.setPrescaler prescaler now)
  | _ => none

theorem performSets {op : Operation} {id : TimerId} {change : Ticks → Timer → Except Fault Timer}
    (sets : op.setting? = some (id, change)) (callback : Callback World) (c : Clock) (world : World) :
    c.perform callback world op = c.settle world (c.onTimer id (change c.current)) := by
  cases op <;> cases sets <;> rfl

def run (callback : Callback World) (c : Clock) (world : World) :
    List Operation → List Outcome × Except Fault (Clock × World)
  | [] => ([], .ok (c, world))
  | op :: rest =>
    match c.perform callback world op with
    | .error f => ([], .error f)
    | .ok (outcome, d, world) =>
      let (outcomes, last) := run callback d world rest
      (outcome :: outcomes, last)

inductive Reachable : Clock → Prop where
  | fresh : Reachable fresh
  | perform {World : Type} {callback : Callback World} {c d : Clock} {world later : World} {op : Operation}
      {outcome : Outcome} (before : Reachable c)
      (performed : c.perform callback world op = .ok (outcome, d, later)) : Reachable d

def ids (c : Clock) : List TimerId := c.timers.map Prod.fst

theorem runCons (callback : Callback World) {c d : Clock} {world later : World} {op : Operation}
    {outcome : Outcome} (h : c.perform callback world op = .ok (outcome, d, later)) (rest : List Operation) :
    c.run callback world (op :: rest) =
      (outcome :: (d.run callback later rest).1, (d.run callback later rest).2) := by
  simp only [run, h]

theorem runOk {callback : Callback World} {c d : Clock} {world later : World} {op : Operation}
    {rest : List Operation} (h : (c.run callback world (op :: rest)).2 = .ok (d, later)) :
    ∃ outcome m between, c.perform callback world op = .ok (outcome, m, between) ∧
      (m.run callback between rest).2 = .ok (d, later) ∧
      (c.run callback world (op :: rest)).1 = outcome :: (m.run callback between rest).1 := by
  cases performed : c.perform callback world op with
  | error f =>
    simp only [run, performed] at h
    cases h
  | ok ended =>
    rw [runCons callback performed] at h ⊢
    exact ⟨_, _, _, rfl, h, rfl⟩

theorem runAppend {callback : Callback World} {c d : Clock} {world later : World} {before : List Operation}
    (h : (c.run callback world before).2 = .ok (d, later)) (after : List Operation) :
    (c.run callback world (before ++ after)).2 = (d.run callback later after).2 := by
  induction before generalizing c world with
  | nil => cases h; rfl
  | cons op rest ih =>
    obtain ⟨_, _, _, performed, onward, _⟩ := runOk h
    rw [List.cons_append, runCons callback performed]
    exact ih onward

theorem runSplit {callback : Callback World} {c d : Clock} {world later : World} {before after : List Operation}
    (h : (c.run callback world (before ++ after)).2 = .ok (d, later)) :
    ∃ m between, (c.run callback world before).2 = .ok (m, between) ∧
      (m.run callback between after).2 = .ok (d, later) := by
  induction before generalizing c world with
  | nil => exact ⟨c, world, rfl, h⟩
  | cons op rest ih =>
    obtain ⟨_, _, _, performed, onward, _⟩ := runOk h
    obtain ⟨m, between, first, second⟩ := ih onward
    refine ⟨m, between, ?_, second⟩
    rw [runCons callback performed]
    exact first

structure Sound (c : Clock) : Prop where
  ascending : c.ids.Pairwise fun a b => a.id.toNat < b.id.toNat
  below : ∀ id ∈ c.ids, id.id.toNat < c.nextId.toNat
  periods : ∀ entry ∈ c.timers, entry.2.Proportioned

theorem Sound.distinct {c : Clock} (h : c.Sound) : c.ids.Nodup :=
  h.ascending.imp fun less same => absurd (same ▸ less) (Nat.lt_irrefl _)

section
variable {c d : Clock} {timers after last : List (TimerId × Timer)} {id : TimerId}
  {operation : Timer → Except Fault Timer}

def Keeps (timers after : List (TimerId × Timer)) : Prop :=
  after.map Prod.fst = timers.map Prod.fst ∧
    ((∀ entry ∈ timers, entry.2.Proportioned) → ∀ entry ∈ after, entry.2.Proportioned)

theorem Keeps.refl (timers : List (TimerId × Timer)) : Keeps timers timers := ⟨rfl, id⟩

theorem Keeps.trans (h : Keeps timers after) (next : Keeps after last) : Keeps timers last :=
  ⟨next.1.trans h.1, fun periods => next.2 (h.2 periods)⟩

theorem Keeps.cons {t u : Timer} (own : t.Proportioned → u.Proportioned) (rest : Keeps timers after) :
    Keeps ((id, t) :: timers) ((id, u) :: after) := by
  refine ⟨congrArg (List.cons id) rest.1, fun periods => ?_⟩
  obtain ⟨first, others⟩ := List.forall_mem_cons.1 periods
  exact List.forall_mem_cons.2 ⟨own first, rest.2 others⟩

theorem Sound.kept (h : c.Sound) (kept : Keeps c.timers d.timers) (next : d.nextId = c.nextId) : d.Sound := by
  have ids : d.ids = c.ids := kept.1
  exact ⟨ids ▸ h.ascending, ids ▸ next ▸ h.below, kept.2 h.periods⟩

theorem updateKeeps (keeps : ∀ t u, operation t = .ok u → t.Proportioned → u.Proportioned)
    (h : updateTimer id operation timers = .ok after) : Keeps timers after := by
  induction timers generalizing after with
  | nil => cases h
  | cons head rest ih =>
    obtain ⟨other, t⟩ := head
    simp only [updateTimer] at h
    split at h
    next =>
      split at h
      next u done => cases h; exact (Keeps.refl rest).cons (keeps t u done)
      next => cases h
    next =>
      split at h
      next later done => cases h; exact (ih done).cons fun own => own
      next => cases h

theorem Sound.onTimer (h : c.Sound) (done : c.onTimer id operation = .ok d)
    (keeps : ∀ t u, operation t = .ok u → t.Proportioned → u.Proportioned) : d.Sound := by
  obtain ⟨timers, updated, same⟩ := bindOk done
  cases same
  exact h.kept (updateKeeps keeps updated) rfl

theorem settleOk {result : Except ClockError Clock} {world later : World} {outcome : Outcome}
    (h : c.settle world result = .ok (outcome, d, later)) : d = c ∨ result = .ok d := by
  unfold settle at h
  split at h
  · cases h; exact .inr rfl
  · cases h; exact .inl rfl
  · cases h

theorem setKeeps {i : Nat} {t u : Timer} (place : timers[i]? = some (id, t))
    (own : t.Proportioned → u.Proportioned) : Keeps timers (timers.set i (id, u)) := by
  induction timers generalizing i with
  | nil => cases place
  | cons head rest ih =>
    cases i with
    | zero => cases place; exact (Keeps.refl rest).cons own
    | succ i => exact (ih place).cons fun own => own

theorem strikesKeep {strikes : List Strike} (h : Strikes timers strikes after) : Keeps timers after := by
  induction h with
  | none timers => exact .refl timers
  | next found rearmed rest ih =>
    obtain ⟨next, rfl, _⟩ := Timer.rearmMeets rearmed
    refine Keeps.trans (setKeeps (earliestAt found).1 ?_) ih
    exact fun own => own

theorem Sound.struck (h : c.Sound) (moved : (∃ strikes, Strikes c.timers strikes d.timers) ∧ d.nextId = c.nextId) :
    d.Sound := by
  obtain ⟨⟨_, struck⟩, next⟩ := moved
  exact h.kept (strikesKeep struck) next

theorem createOk {id : TimerId} (h : c.createTimer = .ok (id, d)) :
    id = ⟨c.nextId⟩ ∧ c.nextId.toNat + 1 < UInt32.size ∧
      d = { c with nextId := c.nextId + 1, timers := c.timers ++ [(⟨c.nextId⟩, .fresh)] } := by
  unfold createTimer at h
  split at h
  next room => cases h; exact ⟨rfl, room, rfl⟩
  next => cases h

theorem Sound.create {id : TimerId} (h : c.Sound) (created : c.createTimer = .ok (id, d)) : d.Sound := by
  obtain ⟨rfl, room, rfl⟩ := createOk created
  have next : (c.nextId + 1).toNat = c.nextId.toNat + 1 := by
    rw [UInt32.toNat_add]
    exact Nat.mod_eq_of_lt room
  refine ⟨?_, ?_, ?_⟩
  · simp only [ids, List.map_append, List.map_cons, List.map_nil, List.pairwise_append]
    refine ⟨h.ascending, List.pairwise_singleton _ _, fun a member b new => ?_⟩
    rw [List.mem_singleton.1 new]
    exact h.below a member
  · intro id member
    change id.id.toNat < (c.nextId + 1).toNat
    simp only [ids, List.map_append, List.mem_append, List.map_cons, List.map_nil, List.mem_singleton] at member
    rcases member with old | rfl
    · have below := h.below id old
      omega
    · change c.nextId.toNat < _
      omega
  · intro entry member
    rcases List.mem_append.1 member with old | new
    · exact h.periods entry old
    · rw [List.mem_singleton.1 new]
      rfl

theorem removeOk (h : c.removeTimer id = .ok d) : d = { c with timers := c.timers.eraseP (·.1 = id) } := by
  unfold removeTimer at h
  split at h
  · cases h; rfl
  · cases h

theorem Sound.remove (h : c.Sound) (removed : c.removeTimer id = .ok d) : d.Sound := by
  obtain rfl := removeOk removed
  have fewer : (c.timers.eraseP (·.1 = id)).Sublist c.timers := List.eraseP_sublist
  exact ⟨h.ascending.sublist (fewer.map _), fun other member => h.below other ((fewer.map _).subset member),
    fun entry member => h.periods entry (fewer.subset member)⟩

theorem restoreKeeps {saved : TimerSnapshot} (h : restoreTimer? saved timers = some after) : Keeps timers after := by
  induction timers generalizing after with
  | nil => cases h
  | cons head rest ih =>
    unfold restoreTimer? at h
    split at h
    next => cases h; exact (Keeps.refl rest).cons fun _ => rfl
    next =>
      obtain ⟨later, restored, rfl⟩ := Option.map_eq_some_iff.1 h
      exact (ih restored).cons fun own => own

theorem restoresKeep (saved : List TimerSnapshot) (timers : List (TimerId × Timer)) :
    Keeps timers (restoreTimers saved timers).2 := by
  induction saved generalizing timers with
  | nil => exact .refl timers
  | cons head rest ih =>
    unfold restoreTimers
    split
    next restored found => exact (restoreKeeps found).trans (ih restored)
    next => exact ih timers

theorem Sound.settled {result : Except ClockError Clock} {world later : World} {outcome : Outcome} (h : c.Sound)
    (settled : c.settle world result = .ok (outcome, d, later)) (sound : ∀ e, result = .ok e → e.Sound) :
    d.Sound := by
  rcases settleOk settled with rfl | done
  · exact h
  · exact sound d done

theorem Sound.performed {callback : Callback World} {world later : World} {op : Operation} {outcome : Outcome}
    (h : c.Sound) (performed : c.perform callback world op = .ok (outcome, d, later)) : d.Sound := by
  cases op with
  | create =>
    obtain ⟨_, created, same⟩ := mapOk performed
    cases same
    exact h.create created
  | remove id => exact h.settled performed fun e => h.remove
  | enable id enabled =>
    refine h.settled performed fun e done => h.onTimer done fun t u changed own => ?_
    split at changed
    · cases changed; exact own
    split at changed
    · obtain ⟨v, armed, same⟩ := bindOk changed
      cases same
      obtain ⟨next, rfl⟩ := Timer.armOk armed
      exact own
    · cases changed; exact own
  | setCompare id compare =>
    refine h.settled performed fun e done => h.onTimer done fun t u changed own => ?_
    obtain ⟨next, rfl⟩ := Timer.rebaseOk changed
    rfl
  | setPrescaler id prescaler =>
    refine h.settled performed fun e done => h.onTimer done fun t u changed own => ?_
    obtain ⟨next, rfl⟩ := Timer.rebaseOk changed
    rfl
  | setCpuUsage | setTargetSpeed | stop | save =>
    cases performed
    exact ⟨h.ascending, h.below, h.periods⟩
  | start =>
    cases performed
    unfold start
    split <;> exact ⟨h.ascending, h.below, h.periods⟩
  | reset =>
    cases performed
    refine h.kept ⟨by simp [reset, Function.comp_def], fun periods entry member => ?_⟩ rfl
    obtain ⟨old, place, rfl⟩ := List.mem_map.1 member
    exact periods old place
  | advance delta =>
    obtain ⟨_, advanced, same⟩ := mapOk performed
    cases same
    exact h.struck (advanceOk advanced)
  | step now =>
    obtain ⟨_, stepped, same⟩ := mapOk performed
    cases same
    exact h.struck (stepOk stepped)
  | load saved =>
    cases performed
    exact h.kept (restoresKeep saved.timers c.timers) rfl

theorem Reachable.run {callback : Callback World} {world later : World} {ops : List Operation} (h : c.Reachable)
    (ran : (c.run callback world ops).2 = .ok (d, later)) : d.Reachable := by
  induction ops generalizing c world with
  | nil => cases ran; exact h
  | cons op rest ih =>
    obtain ⟨_, _, _, performed, onward, _⟩ := runOk ran
    exact ih (.perform h performed) onward

theorem Reachable.sound (h : c.Reachable) : c.Sound := by
  induction h with
  | fresh => exact ⟨.nil, nofun, nofun⟩
  | perform _ performed sound => exact sound.performed performed

end

end Clock

end RobotLink
