import RobotLink.Proofs.CallbackViews
import RobotLink.Proofs.Handles
import RobotLink.Proofs.RobotSteps

/-! The simulated robot over whole runs. However the clock is advanced and whatever is typed or aimed for in
between, the calls of its timers so far account for all that it shows. Once the loop of the clock has taken a
command to stop, it takes no other. -/
namespace RobotLink.Robot
open Simulation (Role Side clearObstacles obstacleLeft obstacleRight Approaches)

structure Turn where
  role : Role
  before : Simulation
  after : Simulation
  deriving DecidableEq, Repr

def driven (flank : Flank) (turns : List Turn) : Nat :=
  ((turns.filter (·.role = .motor)).map fun t => (t.after.side flank).speed.toNat).sum

def drained (turns : List Turn) : Nat := turns.countP (·.role = .battery)

structure Accounted (s : Simulation) (turns : List Turn) : Prop where
  sides : ∀ flank, (s.side flank).Accounted (driven flank turns)
  battery : s.values.battery.toNat = max 550 (800 - drained turns)
  obstacles : s.values.stateSensors &&& obstacleLeft = 0 ∨ s.values.stateSensors &&& obstacleRight = 0
  others : clearObstacles s.values.stateSensors = 0

structure Turn.Sound (t : Turn) : Prop where
  taken : t.before.act t.role = .ok t.after
  approaches : t.role = .motor → ∀ flank, Approaches (t.before.side flank).speed.toNat
    (t.after.side flank).speed.toNat (min (t.before.side flank).dest.toNat 200)
  sensors : clearObstacles t.after.values.stateSensors = clearObstacles t.before.values.stateSensors

def Ledger (turns : List Turn) : Prop :=
  ∀ t older, t :: older <:+ turns → Accounted t.before older ∧ t.Sound ∧ Accounted t.after (t :: older)

structure Kept (s : Simulation) (turns : List Turn) : Prop where
  accounted : Accounted s turns
  ledger : Ledger turns

section
variable {s after : Simulation} {turns : List Turn} {l r : Side}

theorem keptInitial : Kept .initial [] where
  accounted :=
    { sides := fun flank => by cases flank <;> exact ⟨by decide, by decide, by decide, by decide⟩
      battery := by decide
      obstacles := .inl (by decide)
      others := by decide }
  ledger _ _ suffix := absurd (List.suffix_nil.1 suffix) (List.cons_ne_nil _ _)

theorem driveSides (left : s.left.drive = .ok l) (right : s.right.drive = .ok r) (leftDest : l.dest = s.left.dest)
    (rightDest : r.dest = s.right.dest) :
    ∃ after, s.drive = .ok after ∧ after.left = l ∧ after.right = r ∧
      after.values.battery = s.values.battery ∧ after.values.stateSensors = s.values.stateSensors := by
  unfold Simulation.drive
  rw [left, okBind, right, okBind]
  obtain ⟨_, _, _, _, _⟩ := l
  obtain ⟨_, _, _, _, _⟩ := r
  cases leftDest
  cases rightDest
  exact ⟨_, rfl, rfl, rfl, rfl, rfl⟩

theorem Accounted.bits (accounted : Accounted s turns) (same : after.values.stateSensors = s.values.stateSensors) :
    (after.values.stateSensors &&& obstacleLeft = 0 ∨ after.values.stateSensors &&& obstacleRight = 0) ∧
      clearObstacles after.values.stateSensors = 0 := by
  rw [same]
  exact ⟨accounted.obstacles, accounted.others⟩

theorem actAccounts (accounted : Accounted s turns) (role : Role) :
    ∃ after, s.act role = .ok after ∧ Turn.Sound ⟨role, s, after⟩ ∧ Accounted after (⟨role, s, after⟩ :: turns) := by
  cases role with
  | pulse =>
    obtain ⟨others, obstacles⟩ := Simulation.pulseSensors s
    refine ⟨s.pulse, rfl, ⟨rfl, nofun, others⟩, fun flank => ?_, accounted.battery, obstacles, others.trans accounted.others⟩
    cases flank
    · exact accounted.sides .left
    · exact accounted.sides .right
  | motor =>
    obtain ⟨l, left, leftSide, leftNear, leftDest⟩ := Simulation.Side.driveAccounts (accounted.sides .left)
    obtain ⟨r, right, rightSide, rightNear, rightDest⟩ := Simulation.Side.driveAccounts (accounted.sides .right)
    obtain ⟨after, drove, rfl, rfl, battery, sensors⟩ := driveSides left right leftDest rightDest
    obtain ⟨obstacles, others⟩ := accounted.bits sensors
    refine ⟨after, drove, ⟨drove, fun _ flank => ?_, congrArg clearObstacles sensors⟩, fun flank => ?_,
      (congrArg UInt32.toNat battery).trans accounted.battery, obstacles, others⟩
    · cases flank
      · exact leftNear
      · exact rightNear
    · have sum : driven flank (⟨.motor, s, after⟩ :: turns) = driven flank turns + (after.side flank).speed.toNat := by
        simp [driven, Nat.add_comm]
      rw [sum]
      cases flank
      · exact leftSide
      · exact rightSide
  | battery =>
    have rest : s.drain.values.stateSensors = s.values.stateSensors ∧ ∀ flank, s.drain.side flank = s.side flank := by
      unfold Simulation.drain
      split
      · exact ⟨rfl, fun flank => by cases flank <;> rfl⟩
      · exact ⟨rfl, fun _ => rfl⟩
    obtain ⟨sensors, sides⟩ := rest
    obtain ⟨obstacles, others⟩ := accounted.bits sensors
    refine ⟨s.drain, rfl, ⟨rfl, nofun, congrArg clearObstacles sensors⟩, fun flank => ?_, ?_, obstacles, others⟩
    · rw [sides]
      exact accounted.sides flank
    · have count : drained (⟨.battery, s, s.drain⟩ :: turns) = drained turns + 1 := List.countP_cons_of_pos rfl
      rw [count]
      exact Simulation.drainBattery accounted.battery

theorem Kept.act (kept : Kept s turns) (role : Role) :
    ∃ after, s.act role = .ok after ∧ Kept after (⟨role, s, after⟩ :: turns) := by
  obtain ⟨after, acted, sound, accounted⟩ := actAccounts kept.accounted role
  refine ⟨after, acted, accounted, fun t older suffix => ?_⟩
  rcases List.suffix_cons_iff.1 suffix with same | earlier
  · cases same
    exact ⟨kept.accounted, sound, accounted⟩
  · exact kept.ledger t older earlier

end

def recorded : Callback (Simulation × List Turn) := fun timer _ (s, turns) =>
  match Role.ofId? timer with
  | some role => (s.act role).map fun after => (after, ⟨role, s, after⟩ :: turns)
  | none => .ok (s, turns)

theorem recordedShows : recorded.ShowsAs Prod.fst Simulation.callback := by
  rintro timer instant ⟨s, turns⟩
  unfold recorded Simulation.callback
  cases Role.ofId? timer with
  | none => rfl
  | some role =>
    dsimp only
    rw [mapThen]
    cases s.act role <;> rfl

theorem recordedKeeps : recorded.Keeps fun world => Kept world.1 world.2 := by
  rintro timer instant ⟨s, turns⟩ kept
  unfold recorded
  cases Role.ofId? timer with
  | none => exact ⟨_, rfl, kept⟩
  | some role =>
    obtain ⟨after, acted, next⟩ := kept.act role
    dsimp only
    rw [acted]
    exact ⟨_, rfl, next⟩

inductive Action where
  | clock (activity : DrivenClock.Activity)
  | command (line : String)
  | aim (flank : Flank) (speed : UInt32)

def obey (r : Robot) (line : String) : Robot := ((r.command line).map Prod.snd).getD r

def perform (r : Robot) : Action → Except Fault Robot
  | .clock activity => (r.clock.act Simulation.callback r.simulation activity).map fun (clock, simulation) =>
    { r with clock, simulation }
  | .command line => .ok (r.obey line)
  | .aim flank speed => .ok (r.set flank.destination speed)

theorem performWake (r : Robot) (now : Nat) : r.perform (.clock (.wake now)) = r.wake now := by
  rw [perform, wake, DrivenClock.act]
  cases r.clock.wake Simulation.callback r.simulation now <;> rfl

structure Recording where
  robot : Robot
  turns : List Turn

namespace Recording

def perform (d : Recording) : Action → Except Fault Recording
  | .clock activity => (d.robot.clock.act recorded (d.robot.simulation, d.turns) activity).map
    fun (clock, simulation, turns) => ⟨{ d.robot with clock, simulation }, turns⟩
  | .command line => .ok ⟨d.robot.obey line, d.turns⟩
  | .aim flank speed => .ok ⟨d.robot.set flank.destination speed, d.turns⟩

def run (r : Robot) (actions : List Action) : Except Fault Recording := actions.foldlM perform ⟨r, []⟩

end Recording

def Steers (before after : Simulation) : Prop :=
  after = { before with
    values := { before.values with
      destSpeedLeft := after.values.destSpeedLeft, destSpeedRight := after.values.destSpeedRight
      motorDirections := after.values.motorDirections, acsPower := after.values.acsPower } }

structure Follows (before after : Robot) : Prop where
  steers : Steers before.simulation after.simulation
  clock : after.clock = before.clock ∨ ∃ command, after.clock = (before.clock.send command).2

/-- The words of commands that are turned down, each with the reply to them. The last two are sound, but the
loop of the clock has ended. -/
inductive Rejects (running : Bool) : List String → String → Prop
  | speed {left right : String}
      (bad : ¬∃ l r, Text.natural? UInt32.size left = some l ∧ Text.natural? UInt32.size right = some r ∧
        l ≤ 200 ∧ r ≤ 200) : Rejects running ["set", "speed", left, right] setSpeed.rejected
  | clockSpeed {hertz : String} (bad : ∀ n, Text.natural? UInt64.size hertz = some n → n = 0) :
      Rejects running ["clock", "speed", hertz] setClockSpeed.rejected
  | clockUsage {usage : String} {e : CpuUsage.Unknown} (bad : CpuUsage.parse usage = .error e) :
      Rejects running ["clock", "cpu", usage] e.message
  | lateSpeed {hertz : String} {n : Nat} (ended : running = false)
      (found : Text.natural? UInt64.size hertz = some n) (positive : 0 < n) :
      Rejects running ["clock", "speed", hertz] clockStopped
  | lateUsage {usage : String} {u : CpuUsage} (ended : running = false) (found : CpuUsage.parse usage = .ok u) :
      Rejects running ["clock", "cpu", usage] clockStopped

def StopsForGood (r : Robot) : Prop :=
  .stop ∈ r.clock.pending → ∀ now stopped, r.wake now = .ok stopped →
    ∀ (actions : List Action) last, actions.foldlM perform stopped = .ok last → last.clock.running = false

section
variable {s t : Simulation} {turns : List Turn} {r : Robot} {line reply : String}

theorem steeredAccounted (accounted : Accounted s turns) (steers : Steers s t) : Accounted t turns := by
  have sides (flank : Flank) : t.side flank = { s.side flank with dest := (t.side flank).dest } := by
    rw [steers]
    cases flank <;> rfl
  constructor
  case sides =>
    intro flank
    obtain ⟨speed, current, dist, travelled⟩ := accounted.sides flank
    rw [sides]
    exact ⟨speed, current, dist, travelled⟩
  all_goals rw [steers]
  case battery => exact accounted.battery
  case obstacles => exact accounted.obstacles
  case others => exact accounted.others

theorem followsSetSpeed (r : Robot) (left right : String) : Follows r (r.setSpeed left right).2 := by
  unfold setSpeed
  split
  · split <;> exact ⟨rfl, .inl rfl⟩
  · exact ⟨rfl, .inl rfl⟩

theorem followsSend (r : Robot) (command : ClockCommand) (reply : String) : Follows r (r.send command reply).2 := by
  unfold send
  split
  next clock sent => exact ⟨rfl, .inr ⟨command, (congrArg Prod.snd sent).symm⟩⟩
  next => exact ⟨rfl, .inl rfl⟩

theorem followsClockSpeed (r : Robot) (hertz : String) : Follows r (r.setClockSpeed hertz).2 := by
  unfold setClockSpeed
  split
  · split
    · exact followsSend ..
    · exact ⟨rfl, .inl rfl⟩
  · exact ⟨rfl, .inl rfl⟩

theorem followsClockUsage (r : Robot) (usage : String) : Follows r (r.setClockUsage usage).2 := by
  unfold setClockUsage
  split
  · exact followsSend ..
  · exact ⟨rfl, .inl rfl⟩

theorem followsCommand (r : Robot) (line : String) : Follows r (r.obey line) := by
  unfold obey command
  split
  all_goals first
    | exact ⟨rfl, .inl rfl⟩ | exact followsSetSpeed .. | exact followsClockSpeed .. | exact followsClockUsage ..

theorem sendEnded (ended : r.clock.running = false) (command : ClockCommand) (reply : String) :
    r.send command reply = (clockStopped, r) := by
  rw [send, DrivenClock.send, ended]
  rfl

theorem steersAim (r : Robot) (flank : Flank) (speed : UInt32) :
    Steers r.simulation (r.set flank.destination speed).simulation := by
  cases flank <;> rfl

theorem commandSetSpeed {left right : String} (words : Text.words line = ["set", "speed", left, right]) :
    r.command line = some (r.setSpeed left right) := by
  simp only [command, words]

theorem commandSetClockSpeed {hertz : String} (words : Text.words line = ["clock", "speed", hertz]) :
    r.command line = some (r.setClockSpeed hertz) := by
  simp only [command, words]

theorem commandSetClockUsage {usage : String} (words : Text.words line = ["clock", "cpu", usage]) :
    r.command line = some (r.setClockUsage usage) := by
  simp only [command, words]

theorem commandRejected (rejects : Rejects r.clock.running (Text.words line) reply) :
    r.command line = some (reply, r) := by
  generalize same : Text.words line = words at rejects
  cases rejects with
  | @speed left right bad =>
    rw [commandSetSpeed same, setSpeed]
    split
    next l m first second =>
      rw [if_neg fun within => bad ⟨l, m, first, second, within.1, within.2⟩]
    next => rfl
  | @clockSpeed hertz bad =>
    rw [commandSetClockSpeed same, setClockSpeed]
    split
    next n found => rw [if_neg (Nat.not_lt.2 (Nat.le_of_eq (bad n found)))]
    next => rfl
  | @clockUsage usage e bad =>
    rw [commandSetClockUsage same, setClockUsage, bad]
  | @lateSpeed hertz n ended found positive =>
    rw [commandSetClockSpeed same, setClockSpeed, found]
    dsimp only
    rw [if_pos positive, sendEnded ended]
  | @lateUsage usage u ended found =>
    rw [commandSetClockUsage same, setClockUsage, found]
    dsimp only
    rw [sendEnded ended]

theorem commandAccepted {left right : String} {l m : Nat} (words : Text.words line = ["set", "speed", left, right])
    (first : Text.natural? UInt32.size left = some l) (second : Text.natural? UInt32.size right = some m)
    (within : l ≤ 200 ∧ m ≤ 200) :
    r.obey line = r.setValues { r.values with destSpeedLeft := l.toUInt32, destSpeedRight := m.toUInt32 } := by
  have small : l ≤ Simulation.maxSpeed.toNat ∧ m ≤ Simulation.maxSpeed.toNat := within
  rw [obey, commandSetSpeed words, setSpeed]
  simp only [first, second, if_pos small]
  rfl

end

namespace Recording
variable {d e : Recording} {r : Robot} {action : Action} {actions : List Action}

theorem performShows (d : Recording) (action : Action) : (d.perform action).map robot = d.robot.perform action := by
  cases action with
  | clock activity =>
    have viewed := DrivenClock.actViewed recordedShows d.robot.clock (d.robot.simulation, d.turns) activity
    rw [perform, Robot.perform, ← viewed, mapThen, mapThen]
    rfl
  | command | aim => rfl

theorem foldShows (d : Recording) (actions : List Action) :
    (actions.foldlM perform d).map robot = actions.foldlM Robot.perform d.robot := by
  induction actions generalizing d with
  | nil => rfl
  | cons action rest ih =>
    rw [List.foldlM_cons, List.foldlM_cons, ← performShows, mapBind]
    cases d.perform action with
    | error f => rfl
    | ok e => exact ih e

theorem actKept (kept : Kept d.robot.simulation d.turns) (activity : DrivenClock.Activity) :
    (∀ clock s turns, d.robot.clock.act recorded (d.robot.simulation, d.turns) activity = .ok (clock, s, turns) →
      Kept s turns) ∧
      ((∃ ended, d.robot.clock.act recorded (d.robot.simulation, d.turns) activity = .ok ended) ↔
        ∃ ended, d.robot.clock.act .idle () activity = .ok ended) := by
  obtain ⟨keeps, returns⟩ := @DrivenClock.actKeeps _ _ _ recordedKeeps d.robot.clock (d.robot.simulation, d.turns) kept activity
  exact ⟨fun clock s turns => keeps clock (s, turns), returns⟩

theorem performKept (kept : Kept d.robot.simulation d.turns) (performed : d.perform action = .ok e) :
    Kept e.robot.simulation e.turns := by
  cases action with
  | clock activity =>
    obtain ⟨⟨clock, s, turns⟩, acted, same⟩ := mapOk performed
    cases same
    exact (actKept kept activity).1 clock s turns acted
  | command line =>
    cases performed
    exact ⟨steeredAccounted kept.accounted (followsCommand d.robot line).steers, kept.ledger⟩
  | aim flank speed =>
    cases performed
    exact ⟨steeredAccounted kept.accounted (steersAim d.robot flank speed), kept.ledger⟩

theorem performReturns (kept : Kept d.robot.simulation d.turns) (activity : DrivenClock.Activity) :
    (∃ r, d.robot.perform (.clock activity) = .ok r) ↔ ∃ ended, d.robot.clock.act .idle () activity = .ok ended := by
  rw [← (actKept kept activity).2, ← performShows, perform, mapThen]
  exact mapReturns

end Recording

theorem startReturns (hertz : UInt64) (usage : CpuUsage) (saved : Option ClockSnapshot) :
    ∃ r, start hertz usage saved = .ok r ∧ r.simulation = .initial ∧ r.publication = .fresh := by
  have installs : (Simulation.install ((Clock.fresh.setTargetSpeed hertz).setCpuUsage usage)).isOk := by cbv
  cases installed : Simulation.install ((Clock.fresh.setTargetSpeed hertz).setCpuUsage usage) with
  | error e =>
    rw [installed] at installs
    cases installs
  | ok c =>
    rw [start, installed]
    exact ⟨_, rfl, rfl, rfl⟩

theorem performEnded {r e : Robot} {action : Action} (ended : r.clock.running = false)
    (performed : r.perform action = .ok e) : e.clock.running = false := by
  cases action with
  | clock activity =>
    obtain ⟨_, acted, same⟩ := mapOk performed
    cases same
    exact DrivenClock.actEnded ended acted
  | command line =>
    cases performed
    rcases (followsCommand r line).clock with same | ⟨command, sent⟩
    · rw [same, ended]
    · rw [sent, DrivenClock.send, ended]
      exact ended
  | aim flank speed =>
    cases performed
    exact ended

theorem stopsForGood (r : Robot) : StopsForGood r := by
  intro stops now stopped woken actions last folded
  rw [← performWake] at woken
  obtain ⟨⟨clock, simulation⟩, taken, same⟩ := mapOk woken
  cases same
  exact foldKeeps (P := fun r => r.clock.running = false) (fun _ _ _ => performEnded)
    (DrivenClock.wakeStopped stops taken) folded

/-- A robot starts, and after any run its turns account for what it shows, now and before and after each of them.
Their record changes nothing, they add no fault to those of the clock, and a command that is unknown or turned
down changes nothing either, nor does any to the clock once its loop was stopped. -/
theorem runAccounted (hertz : UInt64) (usage : CpuUsage) (saved : Option ClockSnapshot) :
    ∃ r, start hertz usage saved = .ok r ∧ ∀ actions : List Action,
      actions.foldlM perform r = (Recording.run r actions).map Recording.robot ∧
      ∀ d, Recording.run r actions = .ok d →
        Accounted d.robot.simulation d.turns ∧ Ledger d.turns ∧ StopsForGood d.robot ∧
        (∀ activity, (∃ e, d.robot.perform (.clock activity) = .ok e) ↔
          ∃ ended, d.robot.clock.act .idle () activity = .ok ended) ∧
        ∀ line,
          (d.robot.command line = none → d.robot.obey line = d.robot) ∧
          (∀ reply, Rejects d.robot.clock.running (Text.words line) reply → d.robot.command line = some (reply, d.robot)) ∧
          (∀ left right l m, Text.words line = ["set", "speed", left, right] →
            Text.natural? UInt32.size left = some l → Text.natural? UInt32.size right = some m → l ≤ 200 ∧ m ≤ 200 →
            d.robot.obey line =
              d.robot.setValues { d.robot.values with destSpeedLeft := l.toUInt32, destSpeedRight := m.toUInt32 }) ∧
          Steers d.robot.simulation (d.robot.obey line).simulation := by
  obtain ⟨r, started, initial, _⟩ := startReturns hertz usage saved
  refine ⟨r, started, fun actions => ⟨(Recording.foldShows ⟨r, []⟩ actions).symm, fun d ran => ?_⟩⟩
  have kept : Kept d.robot.simulation d.turns :=
    foldKeeps (P := fun d => Kept d.robot.simulation d.turns) (fun _ _ _ => Recording.performKept)
      (initial ▸ keptInitial) ran
  refine ⟨kept.accounted, kept.ledger, stopsForGood d.robot, Recording.performReturns kept, fun line =>
    ⟨fun unknown => ?_, fun reply => commandRejected, fun left right l m => commandAccepted,
      (followsCommand d.robot line).steers⟩⟩
  rw [obey, unknown]
  rfl

theorem fourTurnsDriven :
    let actions : List Action := [.clock (.perform (.enable ⟨0⟩ false)), .aim .left 0xFFFFFFFF,
      .clock (.perform (.advance 320000)), .clock (.send .stop), .clock (.wake 0)]
    ∃ r d, start 8000000 .max none = .ok r ∧ Recording.run r actions = .ok d ∧ d.turns.length = 4 ∧
      driven .left d.turns = 20 ∧ d.robot.values.distLeft.toNat = 1 ∧ d.robot.values.battery.toNat = 800 ∧
      d.robot.command "set speed 7 201" = some ("speed must be 0..=200", d.robot) ∧
      d.robot.command "clock cpu HIGH" = some ("clock thread is not running", d.robot) := by
  intro actions
  obtain ⟨r, started, runs⟩ := runAccounted 8000000 .max none
  have told : ((start 8000000 .max none).toOption.bind fun r => (Recording.run r actions).toOption.map fun d =>
      (d.turns.length, driven .left d.turns, drained d.turns, d.robot.clock.running)) = some (4, 20, 0, false) := by cbv
  rw [started] at told
  have beyond (running : Bool) : Rejects running (Text.words "set speed 7 201") "speed must be 0..=200" := by
    have words : Text.words "set speed 7 201" = ["set", "speed", "7", "201"] := by decide +kernel
    have right : Text.natural? UInt32.size "201" = some 201 := by decide +kernel
    rw [words]
    refine .speed ?_
    rintro ⟨_, _, _, same, _, within⟩
    cases right.symm.trans same
    exact absurd within (by decide)
  have late : Rejects false (Text.words "clock cpu HIGH") "clock thread is not running" := by
    have words : Text.words "clock cpu HIGH" = ["clock", "cpu", "HIGH"] := by decide +kernel
    rw [words]
    exact .lateUsage rfl (by decide +kernel : CpuUsage.parse "HIGH" = .ok .high)
  obtain ⟨_, kept⟩ := runs actions
  cases ran : Recording.run r actions with
  | error f =>
    rw [Except.toOption, Option.bind_some, ran] at told
    cases told
  | ok d =>
    rw [Except.toOption, Option.bind_some, ran] at told
    simp only [Except.toOption, Option.map_some, Option.some.injEq, Prod.mk.injEq] at told
    obtain ⟨length, left, none, ended⟩ := told
    obtain ⟨accounted, _, _, _, commands⟩ := kept d ran
    have dist := (accounted.sides .left).dist
    have battery := accounted.battery
    rw [left] at dist
    rw [none] at battery
    exact ⟨r, d, started, ran, length, left, dist, battery, (commands _).2.1 _ (beyond _),
      (commands _).2.1 _ (ended ▸ late)⟩

end RobotLink.Robot
