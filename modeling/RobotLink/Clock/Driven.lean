import RobotLink.Clock.Advance

/-! A clock handed to a driving loop. Commands wait for the loop, which takes them in order at each
turn, then steps the clock and publishes its latest complete speed sample. A command to stop ends
the loop, and from then on no command reaches it. -/
namespace RobotLink

inductive ClockCommand where
  | setTargetSpeed (hertz : UInt64)
  | setCpuUsage (usage : CpuUsage)
  | stop
  deriving DecidableEq, Repr

def Clock.obey (c : Clock) : List ClockCommand → Bool × Clock
  | [] => (true, c)
  | .setTargetSpeed hertz :: rest => (c.setTargetSpeed hertz).obey rest
  | .setCpuUsage usage :: rest => (c.setCpuUsage usage).obey rest
  | .stop :: _ => (false, c.stop)

structure DrivenClock where
  clock : Clock
  publishedSpeed : UInt32
  pending : List ClockCommand
  running : Bool
  deriving DecidableEq, Repr

namespace DrivenClock

def start (c : Clock) : DrivenClock := ⟨c.start, 0, [], true⟩

def send (d : DrivenClock) (command : ClockCommand) : Bool × DrivenClock :=
  if d.running then (true, { d with pending := d.pending ++ [command] }) else (false, d)

def publish (published : UInt32) : Option SpeedSample → UInt32
  | some sample =>
    if sample.ticksPerSecond.toNat < UInt32.size then sample.ticksPerSecond.toUInt32 else 0xFFFFFFFF
  | none => published

def wake {World : Type} (callback : Callback World) (d : DrivenClock) (world : World) (now : Nat) :
    Except Fault (DrivenClock × World) :=
  if d.running then
    match d.clock.obey d.pending with
    | (false, clock) => return ({ d with clock, pending := [], running := false }, world)
    | (true, clock) => do
      let (summary, clock, world) ← clock.step callback world now
      return (⟨clock, publish d.publishedSpeed summary.speed, [], true⟩, world)
  else return (d, world)

def stop (d : DrivenClock) : Clock :=
  if d.running then (d.clock.obey (d.pending ++ [.stop])).2 else d.clock

end DrivenClock

end RobotLink
