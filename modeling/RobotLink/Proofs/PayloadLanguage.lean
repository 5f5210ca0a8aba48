import RobotLink.Proofs.PayloadRoundTrip

/-! The language of payloads. A read that succeeds has taken exactly the bytes that its value is
written as, so the decoder accepts what the encoder writes and nothing else, whatever stands
behind it. -/
namespace RobotLink

namespace Read
variable {α β : Type}

theorem runBindOk {read : Read α} {next : α → Read β} {payload rest : Bytes} {value : β}
    (h : run (read >>= next) payload = (.ok value, rest)) :
    ∃ first between, run read payload = (.ok first, between) ∧ run (next first) between = (.ok value, rest) := by
  rw [runBind] at h
  split at h
  next first between taken => exact ⟨first, between, taken, h⟩
  next => cases h

theorem runPure {value found : α} {payload rest : Bytes}
    (h : run (pure value) payload = (.ok found, rest)) : found = value ∧ payload = rest := by
  cases h
  exact ⟨rfl, rfl⟩

theorem runThrow {e : DecodeError} {payload rest : Bytes} {value : α} :
    run (throw e : Read α) payload ≠ (.ok value, rest) := by
  intro h
  cases h

theorem runReturn {read : Read α} {f : α → β} {payload rest : Bytes} {value : β}
    (h : run (do return f (← read)) payload = (.ok value, rest)) :
    ∃ first, run read payload = (.ok first, rest) ∧ value = f first := by
  obtain ⟨first, between, taken, last⟩ := runBindOk h
  obtain ⟨rfl, rfl⟩ := runPure last
  exact ⟨first, taken, rfl⟩

def Restores (read : Read α) (put : α → Bytes) : Prop :=
  ∀ {payload value rest}, run read payload = (.ok value, rest) → payload = put value ++ rest

theorem runTakeOk {n : Nat} {payload head rest : Bytes} (h : run (take n) payload = (.ok head, rest)) :
    payload = head ++ rest ∧ head.length = n := by
  rw [runTake] at h
  split at h
  next parts found =>
    cases h
    exact Bytes.splitSome.1 found
  next => cases h

theorem restoresU8 : Restores u8 Payload.putU8 := by
  intro payload value rest h
  obtain ⟨bytes, taken, rfl⟩ := runReturn h
  obtain ⟨rfl, length⟩ := runTakeOk taken
  obtain ⟨b, rfl⟩ := List.length_eq_one_iff.1 length
  simp [Payload.putU8, Bytes.toNat]

theorem restoresNumber {width : Nat} {word : Nat → α} {number : α → Nat}
    (exact : ∀ n < Bytes.span width, number (word n) = n) :
    Restores (do return word (Bytes.toNat (← take width))) fun value => Bytes.ofNat width (number value) := by
  intro payload value rest h
  obtain ⟨bytes, taken, rfl⟩ := runReturn h
  obtain ⟨rfl, rfl⟩ := runTakeOk taken
  simp only [exact _ (Bytes.toNatLt bytes), Bytes.ofNatToNat]

theorem restoresU16 : Restores u16 Payload.putU16 :=
  restoresNumber (show ∀ n < Bytes.span 2, n.toUInt16.toNat = n from fun _ => UInt16.toNat_ofNat_of_lt)

theorem restoresU32 : Restores u32 Payload.putU32 :=
  restoresNumber (show ∀ n < Bytes.span 4, n.toUInt32.toNat = n from fun _ => UInt32.toNat_ofNat_of_lt)

theorem restoresFloat : Restores float Payload.putFloat :=
  restoresNumber (show ∀ n < Bytes.span 8, n.toUInt64.toNat = n from fun _ => UInt64.toNat_ofNat_of_lt)

theorem restoresBool : Restores bool Payload.putBool := by
  intro payload value rest h
  obtain ⟨byte, between, taken, last⟩ := runBindOk h
  have front := restoresU8 taken
  split at last
  · obtain ⟨rfl, rfl⟩ := runPure last
    exact front
  · obtain ⟨rfl, rfl⟩ := runPure last
    exact front
  · exact absurd last runThrow

theorem restoresBlob : Restores blob Payload.putBlob := by
  intro payload value rest h
  obtain ⟨count, between, counted, taken⟩ := runBindOk h
  obtain ⟨rfl, length⟩ := runTakeOk taken
  rw [restoresU32 counted, Payload.putBlob, Payload.putCount, length, List.append_assoc]
  rfl

theorem restoresText : Restores text Payload.putText := by
  intro payload value rest h
  obtain ⟨bytes, between, taken, last⟩ := runBindOk h
  split at last
  next s valid =>
    obtain ⟨rfl, rfl⟩ := runPure last
    rw [Payload.putText, Bytes.ofTextToText valid]
    exact restoresBlob taken
  next => exact absurd last runThrow

theorem restoresTimes {read : Read α} {put : α → Bytes} (each : Restores read put) {n : Nat} {payload rest : Bytes}
    {items : List α} (h : run (times read n) payload = (.ok items, rest)) :
    items.length = n ∧ payload = items.flatMap put ++ rest := by
  induction n generalizing payload items with
  | zero =>
    obtain ⟨rfl, rfl⟩ := runPure h
    exact ⟨rfl, rfl⟩
  | succ n ih =>
    obtain ⟨head, between, first, others⟩ := runBindOk h
    obtain ⟨tail, later, rfl⟩ := runReturn others
    obtain ⟨length, same⟩ := ih later
    rw [List.length_cons, List.flatMap_cons, List.append_assoc, ← same, length]
    exact ⟨rfl, each first⟩

theorem putListRead {put : α → Bytes} {items : List α} {count : UInt32} (length : items.length = count.toNat) :
    Payload.putList put items = Payload.putU32 count ++ items.flatMap put := by
  rw [Payload.putList, Payload.putCount, length]
  rfl

theorem restoresTexts : Restores texts (Payload.putList Payload.putText) := by
  intro payload value rest h
  obtain ⟨count, between, counted, last⟩ := runBindOk h
  obtain ⟨_, same, enough, each⟩ := runBindOk last
  obtain ⟨length, listed⟩ := restoresTimes restoresText each
  have kept : between = same := by
    rw [runEnsure] at enough
    split at enough <;> cases enough
    rfl
  rw [putListRead length, List.append_assoc, ← listed, ← kept]
  exact restoresU32 counted

theorem restoresArg : Restores arg Payload.putArg := by
  intro payload value rest h
  obtain ⟨tag, between, tagged, last⟩ := runBindOk h
  have front := restoresU8 tagged
  split at last
  · obtain ⟨b, read, rfl⟩ := runReturn last
    rw [front, restoresBool read]
    rfl
  · obtain ⟨bits, read, rfl⟩ := runReturn last
    rw [front, restoresFloat read]
    rfl
  · obtain ⟨s, read, rfl⟩ := runReturn last
    rw [front, restoresText read]
    rfl
  · exact absurd last runThrow

theorem restoresArgs : Restores args (Payload.putList Payload.putArg) := by
  intro payload value rest h
  obtain ⟨count, between, counted, each⟩ := runBindOk h
  obtain ⟨length, listed⟩ := restoresTimes restoresArg each
  rw [putListRead length, List.append_assoc, ← listed]
  exact restoresU32 counted

end Read

namespace Message
open Payload (Value)

theorem adaptOk {read : Read Message} {payload rest : Bytes} {m : Message}
    (h : (ExceptT.adapt DispatchError.decode read : ExceptT DispatchError (StateM Bytes) Message) payload =
      (.ok m, rest)) : Read.run read payload = (.ok m, rest) := by
  change StateT.map (Except.mapError DispatchError.decode) read payload = _ at h
  change read payload = _
  rcases done : read payload with ⟨result, left⟩
  simp only [StateT.map, done] at h
  cases result with
  | ok found => cases h; rfl
  | error e => cases h

theorem readOne {α : Type} {read : Read α} {put : α → Bytes} (restores : Read.Restores read put)
    {make : α → Message} {shape : α → Value} (values : ∀ a, (make a).values = [shape a])
    (written : ∀ a, (shape a).encode = put a) {payload rest : Bytes} {m : Message}
    (h : (ExceptT.adapt DispatchError.decode (do return make (← read)) :
      ExceptT DispatchError (StateM Bytes) Message) payload = (.ok m, rest)) :
    ∃ a, m = make a ∧ payload = m.payload ++ rest := by
  obtain ⟨a, taken, rfl⟩ := Read.runReturn (adaptOk h)
  refine ⟨a, rfl, ?_⟩
  rw [payloadOfOne (values a), written]
  exact restores taken

theorem readTwo {α β : Type} {first : Read α} {second : Read β} {putFirst : α → Bytes} {putSecond : β → Bytes}
    (restoresFirst : Read.Restores first putFirst) (restoresSecond : Read.Restores second putSecond)
    {make : α → β → Message} {shapeFirst : α → Value} {shapeSecond : β → Value}
    (values : ∀ a b, (make a b).values = [shapeFirst a, shapeSecond b])
    (writtenFirst : ∀ a, (shapeFirst a).encode = putFirst a)
    (writtenSecond : ∀ b, (shapeSecond b).encode = putSecond b) {payload rest : Bytes} {m : Message}
    (h : (ExceptT.adapt DispatchError.decode (do return make (← first) (← second)) :
      ExceptT DispatchError (StateM Bytes) Message) payload = (.ok m, rest)) :
    ∃ a b, m = make a b ∧ payload = m.payload ++ rest := by
  obtain ⟨a, between, taken, last⟩ := Read.runBindOk (adaptOk h)
  obtain ⟨b, later, rfl⟩ := Read.runReturn last
  refine ⟨a, b, rfl, ?_⟩
  rw [payloadOfTwo (values a b), writtenFirst, writtenSecond, List.append_assoc, ← restoresSecond later]
  exact restoresFirst taken

theorem decodeRestores {widths : WidthTable} {op : Opcode} {payload rest : Bytes} {m : Message}
    (h : decode widths op payload = (.ok m, rest)) :
    m.opcode = op ∧ m.WellFormed widths ∧ payload = m.payload ++ rest := by
  by_cases simple : op.isSimple
  · rw [decode, readSimple simple] at h
    split at h
    next byte =>
      obtain ⟨n, rfl, front⟩ := readOne Read.restoresU8 (fun _ => rfl) (fun _ => rfl) h
      exact ⟨rfl, ⟨simple, byte⟩, front⟩
    next word =>
      obtain ⟨n, rfl, front⟩ := readOne Read.restoresU16 (fun _ => rfl) (fun _ => rfl) h
      exact ⟨rfl, ⟨simple, word⟩, front⟩
    next => cases h
  · cases op with
    | rawSerial | command | runServerLua | removeServerLua | getServerLua | luaText =>
      obtain ⟨s, rfl, front⟩ := readOne Read.restoresText (fun _ => rfl) (fun _ => rfl) h
      exact ⟨rfl, trivial, front⟩
    | runLua | requestedScript =>
      obtain ⟨script, rfl, front⟩ := readOne Read.restoresBlob (fun _ => rfl) (fun _ => rfl) h
      exact ⟨rfl, trivial, front⟩
    | uploadLua | uploadRunLua =>
      obtain ⟨name, script, rfl, front⟩ := readTwo Read.restoresText Read.restoresBlob (fun _ _ => rfl)
        (fun _ => rfl) (fun _ => rfl) h
      exact ⟨rfl, trivial, front⟩
    | getScripts => cases h; exact ⟨rfl, trivial, rfl⟩
    | luaScripts =>
      obtain ⟨names, rfl, front⟩ := readOne Read.restoresTexts (fun _ => rfl) (fun _ => rfl) h
      exact ⟨rfl, trivial, front⟩
    | scriptRunning =>
      obtain ⟨running, rfl, front⟩ := readOne Read.restoresBool (fun _ => rfl) (fun _ => rfl) h
      exact ⟨rfl, trivial, front⟩
    | luaMsg =>
      obtain ⟨key, args, rfl, front⟩ := readTwo Read.restoresText Read.restoresArgs (fun _ _ => rfl)
        (fun _ => rfl) (fun _ => rfl) h
      exact ⟨rfl, trivial, front⟩
    | luaCommand =>
      obtain ⟨name, args, rfl, front⟩ := readTwo Read.restoresText Read.restoresTexts (fun _ _ => rfl)
        (fun _ => rfl) (fun _ => rfl) h
      exact ⟨rfl, trivial, front⟩
    | _ => exact absurd rfl simple

def consumed (widths : WidthTable) (op : Opcode) (payload : Bytes) : Bytes :=
  payload.take (payload.length - (decode widths op payload).2.length)

theorem decodeOk {widths : WidthTable} {op : Opcode} {payload : Bytes} {m : Message}
    (h : (decode widths op payload).1 = .ok m) :
    decode widths op payload = (.ok m, (decode widths op payload).2) := by
  rw [← h]

theorem consumedPayload {widths : WidthTable} {op : Opcode} {payload : Bytes} {m : Message}
    (h : (decode widths op payload).1 = .ok m) : consumed widths op payload = m.payload := by
  obtain ⟨_, _, front⟩ := decodeRestores (decodeOk h)
  have length := congrArg List.length front
  rw [List.length_append] at length
  rw [consumed, show payload.length - (decode widths op payload).2.length = m.payload.length by omega]
  conv => lhs; rw [front]
  exact List.take_left

theorem payloadOfEncode (m : Message) : m.encode.drop (Frame.prefixLength + 1) = m.payload := by
  have split : m.encode = (Payload.putCount m.frame.bodyLength ++ [m.opcode.code]) ++ m.payload := by
    simp [encode, Frame.encode, frame]
  have length : (Payload.putCount m.frame.bodyLength ++ [m.opcode.code]).length = Frame.prefixLength + 1 := by
    rw [List.length_append, Read.lengthPutCount]
    rfl
  rw [split, ← length]
  exact List.drop_left

theorem decodeAlike {op : Opcode} {widths other : WidthTable}
    (same : op.isSimple → other.get? op = widths.get? op) (payload : Bytes) :
    decode other op payload = decode widths op payload := by
  by_cases simple : op.isSimple
  · rw [decode, decode, readSimple simple, readSimple simple, same simple]
  · cases op with
    | rawSerial | command | getScripts | luaScripts | uploadLua | runLua | uploadRunLua
    | runServerLua | removeServerLua | getServerLua | requestedScript | scriptRunning
    | luaText | luaMsg | luaCommand => rfl
    | _ => exact absurd rfl simple

/-- Decoding takes `n` bytes and gives a message exactly when these are the payload of its frame.
What was taken is therefore told by the message alone, and only the width of a simple opcode
itself has any part in it. -/
theorem decodeAcceptsEncoded (op : Opcode) (widths : WidthTable) {p : Bytes} (short : 1 + p.length < UInt32.size) :
    (∀ m n, (decode widths op p).1 = .ok m ∧ p.length - (decode widths op p).2.length = n ↔
      m.opcode = op ∧ m.WellFormed widths ∧ m.frame.Fits ∧ n ≤ p.length ∧
        m.encode.drop (Frame.prefixLength + 1) = p.take n) ∧
    (∀ m, (decode widths op p).1 = .ok m →
      m.encode.drop (Frame.prefixLength + 1) = consumed widths op p ∧
      ∀ other table q, (decode table other q).1 = .ok m → other = op ∧ consumed table other q = consumed widths op p) ∧
    ∀ table : WidthTable, (op.isSimple → table.get? op = widths.get? op) →
      decode table op p = decode widths op p := by
  refine ⟨fun m n => ⟨?_, ?_⟩, fun m read => ⟨?_, ?_⟩, fun table same => decodeAlike same p⟩
  · rintro ⟨read, rfl⟩
    obtain ⟨opcode, formed, front⟩ := decodeRestores (decodeOk read)
    have length := congrArg List.length front
    rw [List.length_append] at length
    refine ⟨opcode, formed, ?_, Nat.sub_le _ _, ?_⟩
    · change 1 + m.payload.length < UInt32.size
      omega
    · rw [payloadOfEncode]
      exact (consumedPayload read).symm
  · rintro ⟨rfl, formed, fits, within, written⟩
    rw [payloadOfEncode] at written
    have length : m.payload.length = n := by
      rw [written, List.length_take_of_le within]
    have small : m.payload.length < UInt32.size := by
      change 1 + m.payload.length < UInt32.size at fits
      omega
    have read := decodePayload formed small (p.drop n)
    rw [written, List.take_append_drop] at read
    rw [read]
    refine ⟨rfl, ?_⟩
    rw [List.length_drop]
    omega
  · rw [payloadOfEncode, consumedPayload read]
  · intro other table q found
    have here := decodeRestores (decodeOk read)
    have there := decodeRestores (decodeOk found)
    exact ⟨there.1.symm.trans here.1, (consumedPayload found).trans (consumedPayload read).symm⟩

theorem eventAccepted :
    let m : Message := .luaMsg "hit" [.float 0x7FF8000000000001, .text "é", .bool false]
    let p := m.payload ++ [7, 255]
    1 + p.length < UInt32.size ∧ (decode .empty .luaMsg p).1 = .ok m ∧
      p.length - (decode .empty .luaMsg p).2.length = 29 ∧ consumed .empty .luaMsg p = m.payload ∧
      decode .standard .luaMsg p = decode .empty .luaMsg p := by
  intro m p
  have short : 1 + p.length < UInt32.size := by decide
  obtain ⟨language, told, alike⟩ := decodeAcceptsEncoded .luaMsg .empty short
  have read := (language m 29).2 ⟨rfl, trivial, by decide, by decide, by decide⟩
  refine ⟨short, read.1, read.2, ?_, alike .standard fun simple => absurd simple (by decide)⟩
  rw [← (told m read.1).1]
  decide

end Message

end RobotLink
