import RobotLink.Proofs.ReportAccounts

/-! Payloads that stop early or go on. What a read takes to succeed is enough for it whatever stands
behind, and any less is an early end and no other error: no part of a message is another message. -/
namespace RobotLink

namespace Read
variable {α β : Type}

def EndsWithin (read : Read α) (front : Bytes) : Prop :=
  ∀ {cut missing}, cut ++ missing = front → missing ≠ [] →
    ∃ needed available left, run read cut = (.error (.unexpectedEnd needed available), left)

def Delimits (read : Read α) : Prop :=
  ∀ {payload value rest}, run read payload = (.ok value, rest) →
    ∃ front, payload = front ++ rest ∧ Takes read front value ∧ EndsWithin read front

theorem delimitsPure (value : α) : Delimits (pure value) := by
  intro payload found rest h
  obtain ⟨rfl, rfl⟩ := runPure h
  refine ⟨[], rfl, takesPure found, fun parts lacks => ?_⟩
  exact absurd (List.append_eq_nil_iff.1 parts).2 lacks

theorem delimitsThrow (e : DecodeError) : Delimits (throw e : Read α) := fun h => absurd h runThrow

theorem delimitsTake (n : Nat) : Delimits (take n) := by
  intro payload head rest h
  obtain ⟨rfl, length⟩ := runTakeOk h
  refine ⟨head, rfl, takesBytes head length, fun {cut missing} parts lacks => ⟨n, cut.length, cut, ?_⟩⟩
  have short : cut.length < n := by
    have whole := congrArg List.length parts
    have more := List.length_pos_of_ne_nil lacks
    rw [List.length_append, length] at whole
    omega
  rw [runTake, Bytes.splitNone.2 short]

theorem endsWithinBind {read : Read α} {next : α → Read β} {first second : Bytes} {a : α} (head : Takes read first a)
    (early : EndsWithin read first) (late : EndsWithin (next a) second) :
    EndsWithin (read >>= next) (first ++ second) := by
  intro cut missing parts lacks
  -- The end is met in the first read, between the two or in the second.
  rcases List.append_eq_append_iff.1 parts with ⟨lacking, rfl, rfl⟩ | ⟨taken, rfl, rfl⟩
  · by_cases between : lacking = []
    · subst between
      have start := head []
      rw [List.append_nil, List.append_nil] at start
      obtain ⟨needed, available, left, ended⟩ := late (List.nil_append _) lacks
      exact ⟨needed, available, left, by rw [runBind, start]; exact ended⟩
    · obtain ⟨needed, available, left, ended⟩ := early rfl between
      exact ⟨needed, available, left, by rw [runBind, ended]⟩
  · obtain ⟨needed, available, left, ended⟩ := late rfl lacks
    exact ⟨needed, available, left, by rw [runBind, head]; exact ended⟩

theorem delimitsBind {read : Read α} {next : α → Read β} (head : Delimits read) (tail : ∀ a, Delimits (next a)) :
    Delimits (read >>= next) := by
  intro payload value rest h
  obtain ⟨a, between, taken, later⟩ := runBindOk h
  obtain ⟨first, rfl, takesFirst, endsFirst⟩ := head taken
  obtain ⟨second, rfl, takesSecond, endsSecond⟩ := tail a later
  exact ⟨first ++ second, (List.append_assoc ..).symm, takesBind takesFirst takesSecond,
    endsWithinBind takesFirst endsFirst endsSecond⟩

theorem delimitsReturn {read : Read α} (f : α → β) (head : Delimits read) : Delimits (do return f (← read)) :=
  delimitsBind head fun a => delimitsPure (f a)

theorem delimitsEnsured {read : Read α} {needed : Nat} (delimits : Delimits read)
    (least : ∀ {payload value rest}, run read payload = (.ok value, rest) → needed + rest.length ≤ payload.length) :
    Delimits (do ensure needed; read) := by
  intro payload value rest h
  obtain ⟨_, same, enough, later⟩ := runBindOk h
  have kept : same = payload := by
    rw [runEnsure] at enough
    split at enough <;> cases enough
    rfl
  rw [kept] at later
  obtain ⟨front, parts, takes, ends⟩ := delimits later
  refine ⟨front, parts, fun other => ?_, fun {cut missing} parts lacks => ?_⟩
  · have long := least (takes other)
    rw [List.length_append] at long
    have passes : ¬ (front ++ other).length < needed := by
      rw [List.length_append]
      omega
    rw [runBind, runEnsure, if_neg passes]
    exact takes other
  · by_cases short : cut.length < needed
    · exact ⟨needed, cut.length, cut, by rw [runBind, runEnsure, if_pos short]⟩
    · rw [runBind, runEnsure, if_neg short]
      exact ends parts lacks

theorem delimitsTimes {read : Read α} (each : Delimits read) (n : Nat) : Delimits (times read n) := by
  induction n with
  | zero => exact delimitsPure []
  | succ n ih => exact delimitsBind each fun head => delimitsReturn (head :: ·) ih

theorem delimitsU8 : Delimits u8 := delimitsReturn _ (delimitsTake 1)

theorem delimitsU16 : Delimits u16 := delimitsReturn _ (delimitsTake 2)

theorem delimitsU32 : Delimits u32 := delimitsReturn _ (delimitsTake 4)

theorem delimitsFloat : Delimits float := delimitsReturn _ (delimitsTake 8)

theorem delimitsBool : Delimits bool := by
  refine delimitsBind delimitsU8 fun byte => ?_
  split
  next => exact delimitsPure false
  next => exact delimitsPure true
  next => exact delimitsThrow _

theorem delimitsBlob : Delimits blob := delimitsBind delimitsU32 fun count => delimitsTake count.toNat

theorem delimitsText : Delimits text := by
  refine delimitsBind delimitsBlob fun bytes => ?_
  split
  next s _ => exact delimitsPure s
  next => exact delimitsThrow _

theorem delimitsTexts : Delimits texts := by
  refine delimitsBind delimitsU32 fun count => delimitsEnsured (delimitsTimes delimitsText count.toNat) ?_
  intro payload items rest h
  obtain ⟨length, rfl⟩ := restoresTimes restoresText h
  have least := lengthOfItems lengthPutText items
  rw [List.length_append]
  omega

theorem delimitsArg : Delimits arg := by
  refine delimitsBind delimitsU8 fun tag => ?_
  split
  next => exact delimitsReturn _ delimitsBool
  next => exact delimitsReturn _ delimitsFloat
  next => exact delimitsReturn _ delimitsText
  next => exact delimitsThrow _

theorem delimitsArgs : Delimits args := delimitsBind delimitsU32 fun count => delimitsTimes delimitsArg count.toNat

end Read

namespace Message

structure Delimited (widths : WidthTable) (op : Opcode) (front : Bytes) (m : Message) : Prop where
  takes : ∀ other, decode widths op (front ++ other) = (.ok m, other)
  endsWithin : ∀ {cut missing}, cut ++ missing = front → missing ≠ [] →
    ∃ needed available left, decode widths op cut = (.error (.decode (.unexpectedEnd needed available)), left)

theorem adaptEnds {read : Read Message} {cut left : Bytes} {e : DecodeError} (h : Read.run read cut = (.error e, left)) :
    (ExceptT.adapt DispatchError.decode read : ExceptT DispatchError (StateM Bytes) Message) cut =
      (.error (.decode e), left) := by
  have done : read cut = (.error e, left) := h
  change StateT.map (Except.mapError DispatchError.decode) read cut = _
  simp only [StateT.map, done]
  rfl

section
variable {widths : WidthTable} {op : Opcode} {payload rest : Bytes} {m : Message}

theorem adaptDelimited {reader : Read Message} (delimits : Read.Delimits reader)
    (same : read widths op = .adapt .decode reader) (h : decode widths op payload = (.ok m, rest)) :
    ∃ front, payload = front ++ rest ∧ Delimited widths op front m := by
  rw [decode, same] at h
  obtain ⟨front, parts, takes, ends⟩ := delimits (adaptOk h)
  refine ⟨front, parts, fun other => ?_, fun parts lacks => ?_⟩
  · rw [decode, same]
    exact adaptTakes takes other
  · obtain ⟨needed, available, left, ended⟩ := ends parts lacks
    exact ⟨needed, available, left, by rw [decode, same]; exact adaptEnds ended⟩

theorem decodeDelimited (h : decode widths op payload = (.ok m, rest)) :
    ∃ front, payload = front ++ rest ∧ Delimited widths op front m := by
  by_cases simple : op.isSimple
  · cases width : widths.get? op with
    | none =>
      rw [decode, readSimple simple, width] at h
      cases h
    | some wide =>
      cases wide with
      | byte =>
        exact adaptDelimited (Read.delimitsReturn _ Read.delimitsU8) (by rw [readSimple simple, width]) h
      | word =>
        exact adaptDelimited (Read.delimitsReturn _ Read.delimitsU16) (by rw [readSimple simple, width]) h
  · cases op with
    | rawSerial | command | runServerLua | removeServerLua | getServerLua | luaText =>
      exact adaptDelimited (Read.delimitsReturn _ Read.delimitsText) rfl h
    | runLua | requestedScript => exact adaptDelimited (Read.delimitsReturn _ Read.delimitsBlob) rfl h
    | uploadLua | uploadRunLua =>
      exact adaptDelimited (Read.delimitsBind Read.delimitsText fun _ => Read.delimitsReturn _ Read.delimitsBlob) rfl h
    | getScripts =>
      cases h
      refine ⟨[], rfl, fun _ => rfl, fun parts lacks => ?_⟩
      exact absurd (List.append_eq_nil_iff.1 parts).2 lacks
    | luaScripts => exact adaptDelimited (Read.delimitsReturn _ Read.delimitsTexts) rfl h
    | scriptRunning => exact adaptDelimited (Read.delimitsReturn _ Read.delimitsBool) rfl h
    | luaMsg =>
      exact adaptDelimited (Read.delimitsBind Read.delimitsText fun _ => Read.delimitsReturn _ Read.delimitsArgs) rfl h
    | luaCommand =>
      exact adaptDelimited (Read.delimitsBind Read.delimitsText fun _ => Read.delimitsReturn _ Read.delimitsTexts) rfl h
    | _ => exact absurd rfl simple

end

end Message

namespace Dispatcher
variable {State : Type} {d : Dispatcher State} {f : Frame}

theorem dispatchUnread {op : Opcode} {e : DispatchError} {left : Bytes} (code : op.code = f.opcode)
    (unread : Message.decode d.widths op f.payload = (.error e, left)) :
    (∀ out, d.dispatch f out = (.error e, out, d)) ∧ d.callsOf f = [] := by
  have known : Opcode.ofCode? f.opcode = some op := by rw [← code, Opcode.ofCodeCode]
  constructor
  · simp only [dispatch, known, unread, implies_true]
  · simp only [callsOf, known, unread]

theorem deliverWidths (cut : List Piece) (d : Dispatcher State) (out : Outbox) :
    (d.deliver cut out).2.2.widths = d.widths := by
  induction cut generalizing d out with
  | nil => rfl
  | cons piece rest ih => rw [deliverCons, ih, afterWidths]

end Dispatcher

theorem Reassembler.processDelivers {State : Type} {r : Reassembler} {cut : List Piece} {tail : Tail}
    (alive : r.failed = none) (here : pieces r.limit r.cursor r.buffer.toBytes = (cut, tail)) (d : Dispatcher State)
    (out : Outbox) : (r.process d out).2.2 = (d.deliver cut out).2 := by
  cases tail with
  | waiting cursor rest => rw [processWaiting alive here]
  | tooLarge size rest => rw [processTooLarge alive here]

namespace Frame

structure CutShort (widths : WidthTable) (f : Frame) : Prop where
  ended : ∀ {State : Type} (d : Dispatcher State), d.widths = widths →
    ∃ needed available, ∀ out, d.dispatch f out = (.error (.decode (.unexpectedEnd needed available)), out, d)
  uncalled : ∀ {State : Type} (d : Dispatcher State), d.widths = widths → d.callsOf f = []
  lost : f.loss widths = some ⟨f.opcode, f.payload.length, .malformed⟩
  processed : ∀ {State : Type} (d : Dispatcher State), d.widths = widths →
    ∀ (out : Outbox) (r : Reassembler) before after tail, r.failed = none →
      pieces r.limit r.cursor r.buffer.toBytes = (before ++ .frame f :: after, tail) →
      (r.process d out).2.2 = (d.deliver (before ++ after) out).2 ∧
      ∀ report, (r.process d out).1 = .ok report →
        report.frames = r.drained + (before.length + 1 + after.length) ∧
        report.discards = List.replicate r.drained .ofEmpty ++ before.filterMap (Piece.loss widths) ++
          ⟨f.opcode, f.payload.length, .malformed⟩ :: after.filterMap (Piece.loss widths)

theorem cutShort {widths : WidthTable} {f : Frame} {op : Opcode} {needed available : Nat} {left : Bytes}
    (code : op.code = f.opcode)
    (early : Message.decode widths op f.payload = (.error (.decode (.unexpectedEnd needed available)), left)) :
    f.CutShort widths := by
  have unread {State : Type} (d : Dispatcher State) (own : d.widths = widths) :
      (∀ out, d.dispatch f out = (.error (.decode (.unexpectedEnd needed available)), out, d)) ∧ d.callsOf f = [] :=
    Dispatcher.dispatchUnread code (own.symm ▸ early)
  have lost : f.loss widths = some ⟨f.opcode, f.payload.length, .malformed⟩ := by
    rw [loss, (unread (.fresh widths ()) rfl).1]
    rfl
  refine ⟨fun d own => ⟨needed, available, (unread d own).1⟩, fun d own => (unread d own).2, lost, ?_⟩
  intro State d own out r before after tail alive here
  constructor
  · have later := (unread (d.deliver before out).2.2 ((Dispatcher.deliverWidths before d out).trans own)).1
    rw [Reassembler.processDelivers alive here, Dispatcher.deliverAppend, Dispatcher.deliverAppend]
    simp only [Dispatcher.deliver, later]
  · intro report done
    obtain ⟨cut, cursor, rest, _, same, rfl, _⟩ := Reassembler.processReports (Prod.ext done rfl)
    cases here.symm.trans same
    constructor
    · change r.drained + (d.deliver _ out).1.frames = _
      rw [Dispatcher.deliverFrames, List.length_append, List.length_cons]
      omega
    · change List.replicate r.drained .ofEmpty ++ (d.deliver _ out).1.discards = _
      rw [Dispatcher.deliverLoss, own, List.filterMap_append, List.append_assoc]
      congr 2
      exact List.filterMap_cons_some lost

end Frame

/-- What a message is read from is its own end: with anything behind it the same message is read, and
cut anywhere the payload ends early, which loses a frame of it whole. -/
theorem Message.partsEndEarly {widths : WidthTable} {op : Opcode} {p : Bytes} {m : Message}
    (read : (decode widths op p).1 = .ok m) :
    let n := p.length - (decode widths op p).2.length
    p.take n ++ (decode widths op p).2 = p ∧ (∀ other, decode widths op (p.take n ++ other) = (.ok m, other)) ∧
      ∀ k < n,
        (∃ needed available left,
          decode widths op (p.take k) = (.error (.decode (.unexpectedEnd needed available)), left)) ∧
        Frame.CutShort widths ⟨op.code, p.take k⟩ := by
  intro n
  obtain ⟨front, parts, delimited⟩ := decodeDelimited (decodeOk read)
  have length : n = front.length := by
    have whole := congrArg List.length parts
    rw [List.length_append] at whole
    exact (congrArg (· - _) whole).trans (Nat.add_sub_cancel ..)
  have taken : p.take n = front := by
    rw [length]
    conv => lhs; rw [parts]
    exact List.take_left
  rw [taken]
  refine ⟨parts.symm, delimited.takes, fun k less => ?_⟩
  have within : p.take k = front.take k := by rw [← taken, List.take_take, Nat.min_eq_left (Nat.le_of_lt less)]
  have missing : front.drop k ≠ [] := List.drop_eq_nil_iff.not.2 (by omega)
  obtain ⟨needed, available, left, early⟩ := delimited.endsWithin (List.take_append_drop k front) missing
  rw [within]
  exact ⟨⟨needed, available, left, early⟩, Frame.cutShort rfl early⟩

theorem Message.letterCutInTwo :
    let m : Message := .luaMsg "hit" [.float 0x7FF8000000000001, .text "é", .bool false]
    let p := m.payload ++ [7, 255]
    let half : Frame := ⟨Opcode.luaMsg.code, p.take 26⟩
    (decode .standard .luaMsg p).1 = .ok m ∧ p.length - (decode .standard .luaMsg p).2.length = 29 ∧
      half.payload.getLast? = some 0xC3 ∧ decode .standard .luaMsg (p.take 29 ++ [0]) = (.ok m, [0]) ∧
      half.CutShort .standard := by
  intro m p half
  have formed : m.WellFormed .standard := trivial
  have whole := decodePayload formed (by decide) [7, 255]
  have read : (decode .standard .luaMsg p).1 = .ok m := congrArg Prod.fst whole
  have length : p.length - (decode .standard .luaMsg p).2.length = 29 := by
    have behind : (decode .standard .luaMsg p).2 = [7, 255] := congrArg Prod.snd whole
    rw [behind]
    decide
  obtain ⟨_, same, early⟩ := partsEndEarly read
  rw [length] at same early
  exact ⟨read, length, by decide, same [0], (early 26 (by decide)).2⟩

end RobotLink
