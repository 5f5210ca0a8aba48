import RobotLink.Message

/-! Values read back. A read that is given the bytes of a value takes exactly these and returns
the value, whatever stands behind them; reads in a row compose, so a payload gives back the
message that it was written for. -/
namespace RobotLink

namespace Read
variable {α β : Type}

def Takes (read : Read α) (bytes : Bytes) (value : α) : Prop :=
  ∀ rest, Read.run read (bytes ++ rest) = (.ok value, rest)

theorem runBind (read : Read α) (next : α → Read β) (payload : Bytes) :
    Read.run (read >>= next) payload =
      match Read.run read payload with
      | (.ok value, rest) => Read.run (next value) rest
      | (.error e, rest) => (.error e, rest) := by
  change Read.run (ExceptT.bind read next) payload = _
  simp only [Read.run, ExceptT.bind, ExceptT.mk, bind, StateT.bind]
  rcases read payload with ⟨result, rest⟩
  cases result with
  | ok value => rfl
  | error e => rfl

theorem takesPure (value : α) : Takes (pure value) [] value := fun _ => rfl

theorem takesBind {read : Read α} {next : α → Read β} {first second : Bytes} {a : α} {b : β}
    (head : Takes read first a) (tail : Takes (next a) second b) :
    Takes (read >>= next) (first ++ second) b := by
  intro rest
  rw [runBind, List.append_assoc, head]
  exact tail rest

theorem takesReturn {read : Read α} {bytes : Bytes} {a : α} (f : α → β) (head : Takes read bytes a) :
    Takes (do return f (← read)) bytes (f a) := by
  have both : Takes (do return f (← read)) (bytes ++ []) (f a) :=
    takesBind head (takesPure (f a))
  rw [List.append_nil] at both
  exact both

theorem runTake (n : Nat) (payload : Bytes) :
    Read.run (take n) payload =
      match Bytes.split? n payload with
      | some (head, tail) => (.ok head, tail)
      | none => (.error (.unexpectedEnd n payload.length), payload) := by
  have opened : Read.run (take n) payload =
      Read.run (match Bytes.split? n payload with
        | some (head, tail) => do set tail; return head
        | none => throw (.unexpectedEnd n payload.length)) payload := rfl
  rw [opened]
  cases Bytes.split? n payload with
  | none => rfl
  | some parts => rfl

theorem runEnsure (needed : Nat) (payload : Bytes) :
    Read.run (ensure needed) payload =
      if payload.length < needed then (.error (.unexpectedEnd needed payload.length), payload)
      else (.ok (), payload) := by
  have opened : Read.run (ensure needed) payload =
      Read.run (if payload.length < needed then throw (.unexpectedEnd needed payload.length) else pure ())
        payload := rfl
  rw [opened]
  split
  next => rfl
  next => rfl

theorem takesBytes {n : Nat} (bytes : Bytes) (length : bytes.length = n) : Takes (take n) bytes bytes := by
  intro rest
  have found : Bytes.split? n (bytes ++ rest) = some (bytes, rest) := Bytes.splitSome.2 ⟨rfl, length⟩
  rw [runTake, found]

theorem takesNumber {width n : Nat} (small : n < Bytes.span width) (f : Nat → α) :
    Takes (do return f (Bytes.toNat (← take width))) (Bytes.ofNat width n) (f n) := by
  have read := takesReturn (fun bytes => f (Bytes.toNat bytes))
    (takesBytes (Bytes.ofNat width n) (Bytes.lengthOfNat width n))
  rw [Bytes.toNatOfNat, Nat.mod_eq_of_lt small] at read
  exact read

theorem takesU8 (n : UInt8) : Takes u8 (Payload.putU8 n) n := by
  have read := takesReturn (fun bytes => (Bytes.toNat bytes).toUInt8) (takesBytes [n] rfl)
  have same : (Bytes.toNat [n]).toUInt8 = n := by simp [Bytes.toNat]
  rw [same] at read
  exact read

theorem takesU16 (n : UInt16) : Takes u16 (Payload.putU16 n) n := by
  have read := takesNumber (show n.toNat < Bytes.span 2 from n.toNat_lt) Nat.toUInt16
  rw [show n.toNat.toUInt16 = n from UInt16.ofNat_toNat] at read
  exact read

theorem takesU32 (n : UInt32) : Takes u32 (Payload.putU32 n) n := by
  have read := takesNumber (show n.toNat < Bytes.span 4 from n.toNat_lt) Nat.toUInt32
  rw [show n.toNat.toUInt32 = n from UInt32.ofNat_toNat] at read
  exact read

theorem takesFloat (bits : UInt64) : Takes float (Payload.putFloat bits) bits := by
  have read := takesNumber (show bits.toNat < Bytes.span 8 from bits.toNat_lt) Nat.toUInt64
  rw [show bits.toNat.toUInt64 = bits from UInt64.ofNat_toNat] at read
  exact read

theorem takesBool (b : Bool) : Takes bool (Payload.putBool b) b := by
  have read (next : UInt8 → Read Bool) (value : UInt8) (done : next value = pure b) :
      Takes (u8 >>= next) [value] b := by
    have both := takesBind (takesU8 value) (done ▸ takesPure b)
    exact both
  cases b with
  | false => exact read _ 0 rfl
  | true => exact read _ 1 rfl

theorem lengthPutCount (n : Nat) : (Payload.putCount n).length = 4 := Bytes.lengthOfNat 4 n

theorem takesCount {n : Nat} (fits : n < UInt32.size) : Takes u32 (Payload.putCount n) n.toUInt32 := by
  have read := takesU32 n.toUInt32
  have same : n.toUInt32.toNat = n := UInt32.toNat_ofNat_of_lt fits
  rw [Payload.putU32, same] at read
  exact read

theorem lengthPutBlob (bytes : Bytes) : (Payload.putBlob bytes).length = 4 + bytes.length := by
  rw [Payload.putBlob, List.length_append, lengthPutCount]

theorem fitsOfBlob {bytes : Bytes} (fits : (Payload.putBlob bytes).length < UInt32.size) :
    bytes.length < UInt32.size := by
  rw [lengthPutBlob] at fits
  omega

theorem takesBlob {bytes : Bytes} (fits : bytes.length < UInt32.size) :
    Takes blob (Payload.putBlob bytes) bytes := by
  have same : bytes.length.toUInt32.toNat = bytes.length := UInt32.toNat_ofNat_of_lt fits
  exact takesBind (takesCount fits) (takesBytes bytes same.symm)

theorem takesText {s : String} (fits : (Payload.putText s).length < UInt32.size) :
    Takes text (Payload.putText s) s := by
  have short : (Bytes.ofText s).length < UInt32.size := fitsOfBlob fits
  have read : Takes text (Payload.putText s ++ []) s := by
    refine takesBind (takesBlob short) ?_
    rw [Bytes.toTextOfText]
    exact takesPure s
  rw [List.append_nil] at read
  exact read

theorem takesTimes {read : Read α} {put : α → Bytes} {items : List α}
    (each : ∀ item ∈ items, Takes read (put item) item) :
    Takes (times read items.length) (items.flatMap put) items := by
  induction items with
  | nil => exact takesPure []
  | cons item rest ih =>
    have first := each item List.mem_cons_self
    have later := ih fun other member => each other (List.mem_cons_of_mem _ member)
    exact takesBind first (takesReturn (item :: ·) later)

theorem lengthOfItem {put : α → Bytes} {items : List α} {item : α} (member : item ∈ items) :
    (put item).length ≤ (items.flatMap put).length := by
  obtain ⟨before, after, rfl⟩ := List.append_of_mem member
  simp only [List.flatMap_append, List.flatMap_cons, List.length_append]
  omega

theorem lengthOfItems {put : α → Bytes} {least : Nat} (long : ∀ item, least ≤ (put item).length)
    (items : List α) : items.length * least ≤ (items.flatMap put).length := by
  induction items with
  | nil => simp
  | cons item rest ih =>
    have first := long item
    rw [List.length_cons, List.flatMap_cons, List.length_append, Nat.succ_mul]
    omega

theorem fitsOfList {put : α → Bytes} {least : Nat} (positive : 0 < least)
    (long : ∀ item, least ≤ (put item).length) {items : List α}
    (fits : (Payload.putList put items).length < UInt32.size) :
    items.length < UInt32.size ∧ ∀ item ∈ items, (put item).length < UInt32.size := by
  rw [Payload.putList, List.length_append, lengthPutCount] at fits
  have count : items.length * 1 ≤ (items.flatMap put).length :=
    lengthOfItems (fun item => Nat.le_trans positive (long item)) items
  refine ⟨by omega, fun item member => ?_⟩
  have within : (put item).length ≤ (items.flatMap put).length := lengthOfItem member
  omega

theorem lengthPutText (s : String) : 4 ≤ (Payload.putText s).length := by
  rw [Payload.putText, lengthPutBlob]
  omega

theorem lengthPutArg (a : LuaArg) : 1 ≤ (Payload.putArg a).length := by
  cases a with
  | bool b => exact Nat.le_add_left _ _
  | float bits => exact Nat.le_add_left _ _
  | text s => exact Nat.le_add_left _ _

theorem takesTexts {items : List String}
    (fits : (Payload.putList Payload.putText items).length < UInt32.size) :
    Takes texts (Payload.putList Payload.putText items) items := by
  obtain ⟨count, each⟩ := fitsOfList (Nat.zero_lt_succ 3) lengthPutText fits
  have same : items.length.toUInt32.toNat = items.length := UInt32.toNat_ofNat_of_lt count
  refine takesBind (takesCount count) ?_
  rw [same]
  -- The shortest texts are four bytes each, so a list as written always passes the check.
  intro rest
  have enough : ¬ (items.flatMap Payload.putText ++ rest).length < items.length * 4 := by
    have least := lengthOfItems lengthPutText items
    rw [List.length_append]
    omega
  rw [runBind, runEnsure, if_neg enough]
  exact takesTimes (fun item member => takesText (each item member)) rest

theorem takesArg {a : LuaArg} (fits : (Payload.putArg a).length < UInt32.size) :
    Takes arg (Payload.putArg a) a := by
  cases a with
  | bool b => exact takesBind (takesU8 0) (takesReturn LuaArg.bool (takesBool b))
  | float bits => exact takesBind (takesU8 1) (takesReturn LuaArg.float (takesFloat bits))
  | text s =>
    have short : (Payload.putText s).length < UInt32.size := Nat.lt_of_succ_lt fits
    exact takesBind (takesU8 2) (takesReturn LuaArg.text (takesText short))

theorem takesArgs {items : List LuaArg}
    (fits : (Payload.putList Payload.putArg items).length < UInt32.size) :
    Takes args (Payload.putList Payload.putArg items) items := by
  obtain ⟨count, each⟩ := fitsOfList Nat.zero_lt_one lengthPutArg fits
  have same : items.length.toUInt32.toNat = items.length := UInt32.toNat_ofNat_of_lt count
  refine takesBind (takesCount count) ?_
  rw [same]
  exact takesTimes fun item member => takesArg (each item member)

end Read

namespace Message
open Payload (Value)

theorem readSimple {op : Opcode} (simple : op.isSimple) (widths : WidthTable) :
    read widths op =
      match widths.get? op with
      | some .byte => .adapt .decode do return .byte op (← Read.u8)
      | some .word => .adapt .decode do return .word op (← Read.u16)
      | none => throw (.missingWidth op) := by
  cases op with
  | rawSerial | command | getScripts | luaScripts | uploadLua | runLua | uploadRunLua
  | runServerLua | removeServerLua | getServerLua | requestedScript | scriptRunning
  | luaText | luaMsg | luaCommand => exact absurd simple (by decide)
  | _ => rfl

theorem adaptTakes {read : Read Message} {bytes : Bytes} {m : Message} (h : Read.Takes read bytes m)
    (rest : Bytes) :
    (ExceptT.adapt DispatchError.decode read : ExceptT DispatchError (StateM Bytes) Message) (bytes ++ rest) =
      (.ok m, rest) := by
  have done : read (bytes ++ rest) = (.ok m, rest) := h rest
  change StateT.map (Except.mapError DispatchError.decode) read (bytes ++ rest) = _
  simp only [StateT.map, done]
  rfl

theorem payloadOfOne {m : Message} {v : Value} (h : m.values = [v]) : m.payload = v.encode := by
  rw [payload, h]
  exact List.append_nil _

theorem payloadOfTwo {m : Message} {v w : Value} (h : m.values = [v, w]) :
    m.payload = v.encode ++ w.encode := by
  rw [payload, h]
  exact congrArg (v.encode ++ ·) (List.append_nil _)

theorem fitsOfTwo {first second : Bytes} (fits : (first ++ second).length < UInt32.size) :
    first.length < UInt32.size ∧ second.length < UInt32.size := by
  rw [List.length_append] at fits
  omega

theorem decodePayload {m : Message} {widths : WidthTable} (formed : m.WellFormed widths)
    (fits : m.payload.length < UInt32.size) (rest : Bytes) :
    decode widths m.opcode (m.payload ++ rest) = (.ok m, rest) := by
  cases m with
  | byte op n =>
    rw [payloadOfOne rfl, decode, opcode, readSimple formed.1, formed.2]
    exact adaptTakes (Read.takesReturn (Message.byte op) (Read.takesU8 n)) rest
  | word op n =>
    rw [payloadOfOne rfl, decode, opcode, readSimple formed.1, formed.2]
    exact adaptTakes (Read.takesReturn (Message.word op) (Read.takesU16 n)) rest
  | getScripts => rfl
  | rawSerial s =>
    rw [payloadOfOne rfl] at fits ⊢
    exact adaptTakes (Read.takesReturn Message.rawSerial (Read.takesText fits)) rest
  | command s =>
    rw [payloadOfOne rfl] at fits ⊢
    exact adaptTakes (Read.takesReturn Message.command (Read.takesText fits)) rest
  | runServerLua s =>
    rw [payloadOfOne rfl] at fits ⊢
    exact adaptTakes (Read.takesReturn Message.runServerLua (Read.takesText fits)) rest
  | removeServerLua s =>
    rw [payloadOfOne rfl] at fits ⊢
    exact adaptTakes (Read.takesReturn Message.removeServerLua (Read.takesText fits)) rest
  | getServerLua s =>
    rw [payloadOfOne rfl] at fits ⊢
    exact adaptTakes (Read.takesReturn Message.getServerLua (Read.takesText fits)) rest
  | luaText s =>
    rw [payloadOfOne rfl] at fits ⊢
    exact adaptTakes (Read.takesReturn Message.luaText (Read.takesText fits)) rest
  | runLua script =>
    rw [payloadOfOne rfl] at fits ⊢
    exact adaptTakes (Read.takesReturn Message.runLua (Read.takesBlob (Read.fitsOfBlob fits))) rest
  | requestedScript script =>
    rw [payloadOfOne rfl] at fits ⊢
    exact adaptTakes (Read.takesReturn Message.requestedScript (Read.takesBlob (Read.fitsOfBlob fits))) rest
  | luaScripts names =>
    rw [payloadOfOne rfl] at fits ⊢
    exact adaptTakes (Read.takesReturn Message.luaScripts (Read.takesTexts fits)) rest
  | scriptRunning running =>
    rw [payloadOfOne rfl]
    exact adaptTakes (Read.takesReturn Message.scriptRunning (Read.takesBool running)) rest
  | uploadLua name script =>
    rw [payloadOfTwo rfl] at fits ⊢
    obtain ⟨first, second⟩ := fitsOfTwo fits
    exact adaptTakes (Read.takesBind (Read.takesText first)
      (Read.takesReturn (Message.uploadLua name) (Read.takesBlob (Read.fitsOfBlob second)))) rest
  | uploadRunLua name script =>
    rw [payloadOfTwo rfl] at fits ⊢
    obtain ⟨first, second⟩ := fitsOfTwo fits
    exact adaptTakes (Read.takesBind (Read.takesText first)
      (Read.takesReturn (Message.uploadRunLua name) (Read.takesBlob (Read.fitsOfBlob second)))) rest
  | luaMsg key args =>
    rw [payloadOfTwo rfl] at fits ⊢
    obtain ⟨first, second⟩ := fitsOfTwo fits
    exact adaptTakes (Read.takesBind (Read.takesText first)
      (Read.takesReturn (Message.luaMsg key) (Read.takesArgs second))) rest
  | luaCommand name args =>
    rw [payloadOfTwo rfl] at fits ⊢
    obtain ⟨first, second⟩ := fitsOfTwo fits
    exact adaptTakes (Read.takesBind (Read.takesText first)
      (Read.takesReturn (Message.luaCommand name) (Read.takesTexts second))) rest

end Message

end RobotLink
