import RobotLink.Proofs.MessageDelivery
import RobotLink.Proofs.RobotRuns

/-! The publication of a robot's values. However they are written, told and asked for anew, the latest message
of each value is its image at the latest publication. A publication tells the values that differ from those of
the one before, or all of them, and whoever reads the messages between frames is given just these. -/
namespace RobotLink.Robot

def image (v : Values) (g : Gauge) : Message := publish g.opcode (v.get g)

def reading (op : Opcode) (n : UInt32) : Nat :=
  match op.standardWidth? with
  | some .byte => min n.toNat 255
  | _ => n.toNat % 65536

inductive Publication.Event where
  | write (g : Gauge) (n : UInt32)
  | publish
  | resendAll
  deriving DecidableEq, Repr

structure Told where
  robot : Robot
  messages : List Message

namespace Told

def next (t : Told) : Publication.Event → Told
  | .write g n => ⟨t.robot.set g n, t.messages⟩
  | .publish => ⟨t.robot.changed.2, t.messages ++ t.robot.changed.1⟩
  | .resendAll => ⟨t.robot.resendAll, t.messages⟩

def run (r : Robot) (events : List Publication.Event) : Told := events.foldl next ⟨r, []⟩

def latest (op : Opcode) (messages : List Message) : Option Message := (messages.filter (·.opcode = op)).getLast?

def note (held : Opcode → Option UInt16) (m : Message) : Opcode → Option UInt16 := fun op =>
  if m.opcode = op then m.simpleValue? else held op

end Told

section
variable {v w : Values} {g : Gauge}

theorem publishOpcode (op : Opcode) (n : UInt32) : (publish op n).opcode = op := by
  unfold publish
  split <;> rfl

theorem publishShort (op : Opcode) (n : UInt32) : (publish op n).frame.bodyLength ≤ 3 := by
  unfold publish
  split
  next => exact Nat.le_succ 2
  next => exact Nat.le_refl 3

theorem publishReading (op : Opcode) (n : UInt32) :
    (publish op n).simpleValue?.map UInt16.toNat = some (reading op n) := by
  have clamped : (if n < 255 then n.toUInt8 else 255).toNat = min n.toNat 255 := by
    split
    next small =>
      have less : n.toNat < 255 := UInt32.lt_iff_toNat_lt.1 small
      rw [UInt32.toNat_toUInt8]
      omega
    next large =>
      have more : 255 ≤ n.toNat := Nat.le_of_not_lt fun less => large (UInt32.lt_iff_toNat_lt.2 less)
      exact (Nat.min_eq_right more).symm
  unfold publish reading
  rcases op.standardWidth? with _ | _ | _
  · simp only [Message.simpleValue?, Option.map_some, UInt32.toNat_toUInt16, Nat.reducePow]
  · simp only [Message.simpleValue?, Option.map_some, UInt8.toNat_toUInt16, clamped]
  · simp only [Message.simpleValue?, Option.map_some, UInt32.toNat_toUInt16, Nat.reducePow]

theorem Gauge.opcodeInjective {g other : Gauge} (same : g.opcode = other.opcode) : g = other := by
  have table : ∀ g ∈ all, ∀ other ∈ all, g.opcode = other.opcode → g = other := by decide
  exact table g (memAll g) other (memAll other) same

theorem Gauge.allOnly (g : Gauge) : all.filter (· = g) = [g] := by cases g <;> rfl

theorem imageSame (same : v.get g = w.get g) : image v g = image w g := by rw [image, image, same]

theorem imageFormed (v : Values) (g : Gauge) : (image v g).WellFormed .standard := by
  cases g <;> exact ⟨rfl, rfl⟩

namespace Publication

theorem changesOf (p : Publication) (v : Values) (g : Gauge) :
    (p.changes v).filter (·.opcode = g.opcode) = if p.sent.map (·.get g) = some (v.get g) then [] else [image v g] := by
  have one (other : Gauge) :
      (if p.sent.map (·.get other) = some (v.get other) then none else some (publish other.opcode (v.get other))).filter
          (·.opcode = g.opcode) =
        if other = g then if p.sent.map (·.get g) = some (v.get g) then none else some (image v g) else none := by
    by_cases same : other = g
    · subst same
      split <;> simp [image, publishOpcode]
    · have apart : other.opcode ≠ g.opcode := fun opcode => same (Gauge.opcodeInjective opcode)
      split <;> simp [publishOpcode, apart]
  have all := List.filterMap_filter (l := Gauge.all) (p := (· = g))
    (f := fun _ => if p.sent.map (·.get g) = some (v.get g) then none else some (image v g))
  simp only [decide_eq_true_eq, Gauge.allOnly] at all
  rw [changes, List.filter_filterMap]
  simp only [one]
  rw [← all]
  split <;> rfl

theorem changesFresh (v : Values) : fresh.changes v = Gauge.all.map (image v) := by
  rw [← List.filterMap_eq_map]
  rfl

theorem changesSince (v w : Values) :
    (⟨some w⟩ : Publication).changes v = (Gauge.all.filter fun g => v.get g ≠ w.get g).map (image v) := by
  rw [← List.filterMap_eq_map, List.filterMap_filter, changes]
  congr 1
  funext g
  by_cases same : v.get g = w.get g
  · simp [same]
  · have other : w.get g ≠ v.get g := fun equal => same equal.symm
    simp [same, other, image]

end Publication

end

namespace Told
open Publication (Event)
variable {t : Told} {events : List Event}

theorem latestAppend (op : Opcode) (messages more : List Message) :
    latest op (messages ++ more) = (latest op more).or (latest op messages) := by
  rw [latest, List.filter_append, List.getLast?_append]
  rfl

theorem heldLatest (op : Opcode) (messages : List Message) (held : Opcode → Option UInt16) :
    messages.foldl note held op = ((latest op messages).map Message.simpleValue?).getD (held op) := by
  induction messages generalizing held with
  | nil => rfl
  | cons m rest ih =>
    have first := latestAppend op [m] rest
    rw [List.singleton_append] at first
    rw [List.foldl_cons, ih, first]
    by_cases same : m.opcode = op
    · have alone : latest op [m] = some m := by simp [latest, same]
      rw [alone, note, if_pos same]
      cases latest op rest <;> rfl
    · have none : latest op [m] = none := by simp [latest, same]
      rw [none, note, if_neg same, Option.or_none]

structure Coherent (t : Told) : Prop where
  images : ∀ m ∈ t.messages, ∃ v g, m = image v g
  latest : ∀ v, t.robot.publication.sent = some v → ∀ g, latest g.opcode t.messages = some (image v g)

theorem Coherent.published (coherent : t.Coherent) : (t.next .publish).Coherent := by
  refine ⟨List.forall_mem_append.2 ⟨coherent.images, fun m member => ?_⟩, fun v sent g => ?_⟩
  · obtain ⟨g, _, found⟩ := List.mem_filterMap.1 member
    split at found
    next => cases found
    next => exact ⟨t.robot.values, g, (Option.some.inj found).symm⟩
  · cases sent
    rw [next, latestAppend, Told.latest, changed, Publication.update, Publication.changesOf]
    split
    next same =>
      obtain ⟨old, sent, unchanged⟩ := Option.map_eq_some_iff.1 same
      rw [List.getLast?_nil, Option.none_or, coherent.latest old sent, imageSame unchanged]
    next => rfl

theorem Coherent.next (coherent : t.Coherent) (event : Event) : (t.next event).Coherent := by
  cases event with
  | write g n => exact ⟨coherent.images, coherent.latest⟩
  | publish => exact coherent.published
  | resendAll => exact ⟨coherent.images, nofun⟩

theorem coherentRun {r : Robot} (fresh : r.publication = .fresh) (events : List Event) : (run r events).Coherent := by
  have start : Coherent ⟨r, []⟩ := by
    refine ⟨nofun, fun v sent => ?_⟩
    rw [fresh] at sent
    cases sent
  exact List.foldlRecOn events next start fun _ coherent event _ => coherent.next event

theorem runLast (r : Robot) (events : List Event) (event : Event) :
    run r (events ++ [event]) = (run r events).next event := by
  rw [run, List.foldl_append]
  rfl

theorem runSplit (r : Robot) (earlier between : List Event) :
    run r (earlier ++ .publish :: between) = between.foldl next ((run r earlier).next .publish) := by
  rw [run, List.foldl_append]
  rfl

theorem publicationSince (silent : .publish ∉ events) :
    (events.foldl next t).robot.publication = if .resendAll ∈ events then .fresh else t.robot.publication := by
  induction events generalizing t with
  | nil => rfl
  | cons event rest ih =>
    rw [List.foldl_cons, ih (List.not_mem_of_not_mem_cons silent)]
    cases event with
    | write g n => simp only [List.mem_cons, reduceCtorEq, false_or]; rfl
    | publish => exact absurd List.mem_cons_self silent
    | resendAll => simp [next, resendAll, Publication.resendAll]

theorem valueSince {g : Gauge} (kept : ∀ n, .write g n ∈ events → n = t.robot.values.get g) :
    (events.foldl next t).robot.values.get g = t.robot.values.get g := by
  induction events generalizing t with
  | nil => rfl
  | cons event rest ih =>
    have same : (t.next event).robot.values.get g = t.robot.values.get g := by
      cases event with
      | write other n =>
        change (t.robot.values.set other n).get g = _
        rw [Values.getSet]
        split
        next here => exact kept n (here ▸ List.mem_cons_self)
        next => rfl
      | publish => rfl
      | resendAll => rfl
    rw [List.foldl_cons, ih fun n later => (kept n (List.mem_cons_of_mem _ later)).trans same.symm, same]

structure Tells (r : Robot) (events : List Event) (told : List Message) : Prop where
  first : .publish ∉ events → told = Gauge.all.map (image (run r events).robot.values)
  anew : ∀ earlier between, events = earlier ++ .publish :: between → .publish ∉ between → .resendAll ∈ between →
    told = Gauge.all.map (image (run r events).robot.values)
  since : ∀ earlier between, events = earlier ++ .publish :: between → .publish ∉ between → .resendAll ∉ between →
    told = (Gauge.all.filter fun g => (run r events).robot.values.get g ≠ (run r earlier).robot.values.get g).map
      (image (run r events).robot.values)
  unwritten : ∀ earlier between, events = earlier ++ .publish :: between → .publish ∉ between → .resendAll ∉ between →
    ∀ g, (∀ n, .write g n ∈ between → n = (run r earlier).robot.values.get g) → ∀ m ∈ told, m.opcode ≠ g.opcode

theorem changedTells {r : Robot} (fresh : r.publication = .fresh) (events : List Event) :
    Tells r events (run r events).robot.changed.1 := by
  have since {earlier between : List Event} (parts : events = earlier ++ .publish :: between) (silent : .publish ∉ between)
      (kept : .resendAll ∉ between) : (run r events).robot.changed.1 =
        (Gauge.all.filter fun g => (run r events).robot.values.get g ≠ (run r earlier).robot.values.get g).map
          (image (run r events).robot.values) := by
    have publication := publicationSince (t := (run r earlier).next .publish) silent
    rw [← runSplit, ← parts, if_neg kept] at publication
    rw [changed, publication]
    exact Publication.changesSince ..
  constructor
  case first =>
    intro silent
    have publication := publicationSince (t := ⟨r, []⟩) silent
    rw [← run, fresh, ite_self] at publication
    rw [changed, publication]
    exact Publication.changesFresh _
  case anew =>
    intro earlier between parts silent asked
    have publication := publicationSince (t := (run r earlier).next .publish) silent
    rw [← runSplit, ← parts, if_pos asked] at publication
    rw [changed, publication]
    exact Publication.changesFresh _
  case since => exact fun earlier between => since
  case unwritten =>
    intro earlier between parts silent kept g own m member opcode
    have value := valueSince (t := (run r earlier).next .publish) own
    rw [← runSplit, ← parts] at value
    rw [since parts silent kept] at member
    obtain ⟨other, differs, rfl⟩ := List.mem_map.1 member
    cases Gauge.opcodeInjective ((publishOpcode ..).symm.trans opcode)
    exact absurd value (of_decide_eq_true (List.mem_filter.1 differs).2)

end Told

def Delivered (ms : List Message) : Prop :=
  ∀ {State : Type} (d : Dispatcher State) (out : Outbox) (u : Reassembler) (chunks : List Bytes), d.widths = .standard →
    u.StandsAt (.waiting .needLength []) → u.drained = 0 → (∀ m ∈ ms, m.frame.bodyLength ≤ u.limit.toNat) →
    chunks.flatten = ms.flatMap Message.encode →
    ∃ reports last after, u.feedAll d.watched out chunks = (reports.map .ok, last, after) ∧
      reports.length = chunks.length ∧ Report.total reports = ⟨ms.length, []⟩ ∧ after.state.2 = ms ∧
      last.StandsAt (.waiting .needLength [])

theorem imagesDelivered {ms : List Message} (images : ∀ m ∈ ms, ∃ v g, m = image v g) : Delivered ms := by
  intro State d out u chunks widths between reported fits stream
  have formed : ∀ m ∈ ms, m.WellFormed d.watched.widths := by
    intro m member
    obtain ⟨v, g, rfl⟩ := images m member
    change (image v g).WellFormed d.widths
    rw [widths]
    exact imageFormed v g
  have awaits := Reassembler.awaitsBetween between reported d.watchedWatches formed fits
  rw [← stream] at awaits
  exact Reassembler.feedAllMessages awaits out

open Told (run latest note)

/-- A robot starts, and after any run that ends with a publication the latest message of each value is its image,
the publication has told what it ought to and no more, any of the messages reach their clients, and a client
that took all of them holds the reading of each value. -/
theorem imagesTold (hertz : UInt64) (usage : CpuUsage) (saved : Option ClockSnapshot) :
    ∃ r, start hertz usage saved = .ok r ∧ ∀ events : List Publication.Event,
      let now := run r (events ++ [.publish])
      (∃ told, now.messages = (run r events).messages ++ told ∧ (run r events).robot.changed.1 = told ∧
        Told.Tells r events told) ∧
      (∀ g, latest g.opcode now.messages = some (image now.robot.values g)) ∧
      (∀ m ∈ now.messages, m.frame.bodyLength ≤ 3) ∧
      (∀ ms, (∀ m ∈ ms, m ∈ now.messages) → Delivered ms) ∧
      ∀ g, (now.messages.foldl note (fun _ => none) g.opcode).map UInt16.toNat =
        some (reading g.opcode (now.robot.values.get g)) := by
  obtain ⟨r, started, _, fresh⟩ := startReturns hertz usage saved
  refine ⟨r, started, fun events => ?_⟩
  intro now
  have last : now = (run r events).next .publish := Told.runLast r events .publish
  have coherent : now.Coherent := Told.coherentRun fresh _
  have current (g : Gauge) : latest g.opcode now.messages = some (image now.robot.values g) :=
    coherent.latest now.robot.values (by rw [last]; rfl) g
  refine ⟨⟨_, congrArg Told.messages last, rfl, Told.changedTells fresh events⟩, current, fun m member => ?_,
    fun ms told => imagesDelivered fun m member => coherent.images m (told m member), fun g => ?_⟩
  · obtain ⟨v, g, rfl⟩ := coherent.images m member
    exact publishShort ..
  · rw [Told.heldLatest, current]
    exact publishReading ..

theorem wideValuesTold :
    let events : List Publication.Event :=
      [.publish, .write .battery 70000, .write .speedLeft 300, .write .speedRight 0]
    let told : List Message := [.byte .motorSpeedLeft 255, .word .battery 4464]
    ∃ r, start 8000000 .normal none = .ok r ∧ (run r (events ++ [.publish])).messages.drop 14 = told ∧
      latest .battery (run r (events ++ [.publish])).messages = some (.word .battery 4464) ∧
      ∃ reports last after, (Reassembler.fresh 3).feedAll (Dispatcher.fresh .standard ()).watched .empty
          [[2, 0, 0, 0, 8, 255, 3], [0, 0, 0, 5, 112, 17]] = (reports.map .ok, last, after) ∧
        Report.total reports = ⟨2, []⟩ ∧ after.state.2 = told := by
  intro events told
  obtain ⟨r, started, runs⟩ := imagesTold 8000000 .normal none
  obtain ⟨same, again, initial, fresh⟩ := startReturns 8000000 .normal none
  cases started.symm.trans again
  obtain ⟨⟨answer, messages, _, tells⟩, current, _, delivered, _⟩ := runs events
  have before : r.values = .initial := congrArg Simulation.values initial
  have values : (run r events).robot.values =
      { Values.initial with battery := 70000, speedLeft := 300, speedRight := 0 } := by
    change ((r.values.set .battery 70000).set .speedLeft 300).set .speedRight 0 = _
    rw [before]
    rfl
  have since : answer = told := by
    have changed := tells.since [] [.write .battery 70000, .write .speedLeft 300, .write .speedRight 0] rfl
      (by decide) (by decide)
    have earlier : (run r []).robot.values = .initial := before
    rw [values, earlier] at changed
    rw [changed]
    decide
  have first : (run r events).messages.length = 14 := by
    change ([] ++ r.publication.changes r.values).length = 14
    rw [fresh, List.nil_append, Publication.changesFresh]
    rfl
  have unchanged : (run r (events ++ [.publish])).robot.values = (run r events).robot.values := by
    rw [Told.runLast]
    rfl
  have battery := current .battery
  rw [unchanged, values] at battery
  obtain ⟨reports, last, after, fed, _, total, seen, _⟩ := delivered told
    (fun m member => messages ▸ List.mem_append_right _ (since ▸ member)) (Dispatcher.fresh .standard ()) .empty (.fresh 3)
    [[2, 0, 0, 0, 8, 255, 3], [0, 0, 0, 5, 112, 17]] rfl ⟨rfl, rfl, rfl⟩ rfl (by decide) (by decide)
  refine ⟨r, started, ?_, battery, reports, last, after, fed, total, seen⟩
  rw [messages, ← first, List.drop_left, since]

theorem unreadyClientsMiss :
    let m := image .initial .battery
    let d := (Dispatcher.fresh .standard ()).watched
    let given := fun u : Reassembler => ((u.feed m.encode d .empty).1, (u.feed m.encode d .empty).2.2.2.state.2)
    let behind := fun (limit : UInt32) (bytes : Bytes) => ((Reassembler.fresh limit).feed bytes d .empty).2.1
    (∃ r, start 8000000 .normal none = .ok r ∧ m ∈ (run r [.publish]).messages) ∧
      given (.fresh 2) = (.error (.tooLarge 3 2), []) ∧
      given (behind 3 [4, 0, 0, 0]) = (.error (.tooLarge 4 3), []) ∧
      given (behind 16777216 [3, 0]) = (.ok ⟨0, []⟩, []) ∧
      given ((Reassembler.fresh 16777216).extend [0, 0, 0, 0]).next.2 = (.ok ⟨2, [.ofEmpty]⟩, [m]) := by
  obtain ⟨r, started, initial, fresh⟩ := startReturns 8000000 .normal none
  have told : image .initial .battery ∈ r.publication.changes r.values := by
    rw [fresh, Publication.changesFresh, show r.values = .initial from congrArg Simulation.values initial]
    exact List.mem_map_of_mem (Gauge.memAll .battery)
  exact ⟨⟨r, started, told⟩, by cbv, by cbv, by cbv, by cbv⟩

end RobotLink.Robot
