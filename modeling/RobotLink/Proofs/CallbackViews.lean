import RobotLink.Clock.Driven
import RobotLink.Proofs.ClockRuns

/-! Views of the world behind a clock. A clock knows its world through the callback alone, so where calls
follow a view of it all that a clock does follows it: a record of the calls changes nothing, what every call
keeps is kept, and where no call faults the clock returns as if nothing were called. A loop that has ended
stays so. -/
namespace RobotLink

namespace Callback
variable {World Shown : Type}

def ShowsAs (callback : Callback World) (view : World → Shown) (other : Callback Shown) : Prop :=
  ∀ timer instant world, (callback timer instant world).map view = other timer instant (view world)

def Keeps (callback : Callback World) (kept : World → Prop) : Prop :=
  ∀ timer instant world, kept world → ∃ next, callback timer instant world = .ok next ∧ kept next

def idle : Callback Unit := fun _ _ _ => .ok ()

def within {callback : Callback World} {kept : World → Prop} (keeps : callback.Keeps kept) :
    Callback {world // kept world} := fun timer instant world =>
  match called : callback timer instant world.1 with
  | .ok next => .ok ⟨next, by
      obtain ⟨other, same, good⟩ := keeps timer instant world.1 world.2
      cases called.symm.trans same
      exact good⟩
  | .error f => .error f

variable {callback : Callback World} {kept : World → Prop} (keeps : callback.Keeps kept)

theorem withinShows : (within keeps).ShowsAs Subtype.val callback := by
  intro timer instant world
  unfold within
  split
  next next called => exact called.symm
  next f called => exact called.symm

theorem withinIdle : (within keeps).ShowsAs (fun _ => ()) idle := by
  intro timer instant world
  obtain ⟨next, same, _⟩ := keeps timer instant world.1 world.2
  unfold within
  split
  next => rfl
  next f called => cases called.symm.trans same

end Callback

namespace Clock
variable {World Shown : Type} {callback : Callback World} {view : World → Shown} {other : Callback Shown}
  {target : Ticks} {cap : Option Nat}

def Sweep.viewed (view : World → Shown) (s : Sweep World) : Sweep Shown :=
  ⟨s.current, s.timers, s.fired, view s.world⟩

def Sweep.Next.viewed (view : World → Shown) : Sweep.Next World → Sweep.Next Shown
  | .finished => .finished
  | .capped => .capped
  | .fired s => .fired (s.viewed view)

theorem nextViewed (shows : callback.ShowsAs view other) (s : Sweep World) :
    (s.next callback target cap).map (Sweep.Next.viewed view) = (s.viewed view).next other target cap := by
  unfold Sweep.next Sweep.viewed
  cases earliest? s.timers with
  | none => rfl
  | some entry =>
    obtain ⟨i, id, t⟩ := entry
    dsimp only
    by_cases due : t.nextMatch ≤ target
    · by_cases full : cap.any (· ≤ s.fired)
      · simp only [due, full, not_true, if_false, if_true]
        rfl
      · simp only [due, full, not_true, if_false, ← shows id t.nextMatch s.world]
        cases callback id t.nextMatch s.world <;> cases t.countMatch.rearm <;> rfl
    · simp only [due, not_false_eq_true, if_true]
      rfl

theorem runViewed (shows : callback.ShowsAs view other) (s : Sweep World) :
    (s.run callback target cap).map (Prod.map (Sweep.viewed view) id) = (s.viewed view).run other target cap := by
  fun_induction Sweep.run callback target cap s with
  | case1 s f next | case2 s next | case3 s next =>
    rw [Sweep.runNext, ← nextViewed shows, next]
    rfl
  | case4 s n next ih =>
    rw [ih]
    conv => rhs; rw [Sweep.runNext, ← nextViewed shows, next]
    rfl

theorem advanceViewed (shows : callback.ShowsAs view other) (c : Clock) (world : World) (delta : UInt64) :
    (c.advance callback world delta).map (Prod.map id (Prod.map id view)) = c.advance other (view world) delta := by
  unfold advance
  simp only [mapBind]
  refine bind_congr fun sum => bind_congr fun target => ?_
  have same := @runViewed _ _ _ _ _ target c.cpuUsage.cap? shows ⟨c.current, c.timers, 0, world⟩
  rw [Sweep.viewed] at same
  rw [← same]
  cases Sweep.run callback target c.cpuUsage.cap? ⟨c.current, c.timers, 0, world⟩ with
  | error f => rfl
  | ok ended =>
    obtain ⟨last, capped⟩ := ended
    cases capped with
    | true =>
      simp only [okBind, if_true, mapBind]
      rfl
    | false => rfl

theorem stepViewed (shows : callback.ShowsAs view other) (c : Clock) (world : World) (now : Nat) :
    (c.step callback world now).map (Prod.map id (Prod.map id view)) = c.step other (view world) now := by
  unfold step
  split
  · rfl
  cases c.lastStep with
  | none => rfl
  | some last =>
    simp only [mapBind]
    refine bind_congr fun product => bind_congr fun scaled => ?_
    rw [← advanceViewed shows]
    cases Clock.advance callback _ world _ with
    | error f => rfl
    | ok ended =>
      simp only [okBind]
      rfl

theorem settleViewed (c : Clock) (world : World) (result : Except ClockError Clock) :
    (c.settle world result).map (Prod.map id (Prod.map id view)) = c.settle (view world) result := by
  unfold settle
  split <;> rfl

theorem performViewed (shows : callback.ShowsAs view other) (c : Clock) (world : World) (op : Operation) :
    (c.perform callback world op).map (Prod.map id (Prod.map id view)) = c.perform other (view world) op := by
  cases op with
  | create => simp only [perform, mapThen]; rfl
  | remove | enable | setCompare | setPrescaler => exact settleViewed ..
  | setCpuUsage | setTargetSpeed | start | stop | reset | save | load => rfl
  | advance delta =>
    simp only [perform, ← advanceViewed shows, mapThen]
    rfl
  | step now =>
    simp only [perform, ← stepViewed shows, mapThen]
    rfl

end Clock

theorem Clock.obeyStops {commands : List ClockCommand} (stops : .stop ∈ commands) (c : Clock) :
    (c.obey commands).1 = false := by
  induction commands generalizing c with
  | nil => cases stops
  | cons command rest ih =>
    cases command with
    | stop => rfl
    | setTargetSpeed | setCpuUsage => exact ih ((List.mem_cons.1 stops).resolve_left nofun) _

namespace DrivenClock
variable {World Shown : Type} {callback : Callback World} {view : World → Shown} {other : Callback Shown}

inductive Activity where
  | perform (op : Clock.Operation)
  | send (command : ClockCommand)
  | wake (now : Nat)

def act (callback : Callback World) (d : DrivenClock) (world : World) :
    Activity → Except Fault (DrivenClock × World)
  | .perform op => (d.clock.perform callback world op).map fun (_, clock, world) => ({ d with clock }, world)
  | .send command => .ok ((d.send command).2, world)
  | .wake now => d.wake callback world now

theorem actViewed (shows : callback.ShowsAs view other) (d : DrivenClock) (world : World) (activity : Activity) :
    (d.act callback world activity).map (Prod.map id view) = d.act other (view world) activity := by
  cases activity with
  | perform op =>
    simp only [act, ← Clock.performViewed shows, mapThen]
    rfl
  | send command => rfl
  | wake now =>
    unfold act wake
    dsimp only
    split
    · obtain ⟨goes, c⟩ := d.clock.obey d.pending
      cases goes with
      | false => rfl
      | true =>
        dsimp only
        rw [← Clock.stepViewed shows]
        cases c.step callback world now <;> rfl
    · rfl

theorem actKeeps {kept : World → Prop} (keeps : callback.Keeps kept) (d : DrivenClock) {world : World}
    (start : kept world) (activity : Activity) :
    (∀ e later, d.act callback world activity = .ok (e, later) → kept later) ∧
      ((∃ ended, d.act callback world activity = .ok ended) ↔ ∃ ended, d.act .idle () activity = .ok ended) := by
  have plain := actViewed (Callback.withinShows keeps) d ⟨world, start⟩ activity
  have bare := actViewed (Callback.withinIdle keeps) d ⟨world, start⟩ activity
  dsimp only at plain
  rw [← plain, ← bare]
  cases d.act (Callback.within keeps) ⟨world, start⟩ activity with
  | error f => exact ⟨nofun, ⟨nofun, nofun⟩⟩
  | ok ended =>
    refine ⟨fun e later same => ?_, fun _ => ⟨_, rfl⟩, fun _ => ⟨_, rfl⟩⟩
    cases same
    exact ended.2.2

section
variable {d e : DrivenClock} {world later : World}

theorem wakeStopped (stops : .stop ∈ d.pending) {now : Nat}
    (woken : d.act callback world (.wake now) = .ok (e, later)) : e.running = false := by
  rw [act, wake] at woken
  split at woken
  next running =>
    have stopped := Clock.obeyStops stops d.clock
    generalize d.clock.obey d.pending = taken at woken stopped
    obtain ⟨goes, c⟩ := taken
    cases stopped
    cases woken
    rfl
  next ended =>
    cases woken
    exact eq_false_of_ne_true ended

theorem actEnded (ended : d.running = false) {activity : Activity}
    (acted : d.act callback world activity = .ok (e, later)) : e.running = false := by
  cases activity with
  | perform op =>
    obtain ⟨_, _, same⟩ := mapOk acted
    cases same
    exact ended
  | send command =>
    cases acted
    rw [send, ended]
    exact ended
  | wake now =>
    rw [act, wake, ended] at acted
    cases acted
    exact ended

end
end DrivenClock
end RobotLink
