import RobotLink.Frame
import RobotLink.Proofs.GuardedReads

/-! Values put one after the other into a frame and read one after the other from its payload. The matching reads
return the values put and stand, after each, where the frame ended behind it. Whatever is read from whatever bytes,
no access breaks off, and the position never goes back and never leaves the payload. -/
namespace RobotLink

namespace Frame
open Payload (Value)

theorem putAll (f : Frame) (values : List Value) :
    values.foldl put f = ⟨f.opcode, f.payload ++ values.flatMap Value.encode⟩ := by
  induction values generalizing f with
  | nil => simp
  | cons value rest ih => simp [ih, put]

theorem composed (opcode : UInt8) (values : List Value) :
    compose opcode values = ⟨opcode, values.flatMap Value.encode⟩ := putAll ⟨opcode, []⟩ values

theorem bodyLengthsFrom (f : Frame) (values : List Value) :
    bodyLengths.go f values =
      (List.range (values.length + 1)).map fun k => f.bodyLength + ((values.take k).flatMap Value.encode).length := by
  induction values generalizing f with
  | nil => simp [bodyLengths.go]
  | cons value rest ih =>
    rw [bodyLengths.go, ih, List.length_cons, List.range_succ_eq_map (n := rest.length + 1), List.map_cons, List.map_map]
    congr 1
    refine List.map_congr_left fun k _ => ?_
    simp only [Function.comp_apply, Nat.succ_eq_add_one, List.take_succ_cons, List.flatMap_cons, List.length_append, put,
      bodyLength]
    omega

end Frame

namespace Payload

inductive Kind where
  | bool
  | u8
  | u16
  | u32
  | float
  | text
  | blob
  | texts
  | arg
  deriving DecidableEq, Repr

def Value.kind? : Value → Option Kind
  | .bool _ => some .bool
  | .u8 _ => some .u8
  | .u16 _ => some .u16
  | .u32 _ => some .u32
  | .float _ => some .float
  | .text _ => some .text
  | .blob _ => some .blob
  | .texts _ => some .texts
  | .arg _ => some .arg
  | .u8s _ | .u16s _ | .args _ | .raw _ => none

namespace Kind

def read : Kind → Read Value
  | .bool => do return .bool (← Read.bool)
  | .u8 => do return .u8 (← Read.u8)
  | .u16 => do return .u16 (← Read.u16)
  | .u32 => do return .u32 (← Read.u32)
  | .float => do return .float (← Read.float)
  | .text => do return .text (← Read.text)
  | .blob => do return .blob (← Read.blob)
  | .texts => do return .texts (← Read.texts)
  | .arg => do return .arg (← Read.arg)

def access : Kind → Access Value
  | .bool => do return .bool (← Access.bool)
  | .u8 => do return .u8 (← Access.u8)
  | .u16 => do return .u16 (← Access.u16)
  | .u32 => do return .u32 (← Access.u32)
  | .float => do return .float (← Access.float)
  | .text => do return .text (← Access.text)
  | .blob => do return .blob (← Access.blob)
  | .texts => do return .texts (← Access.texts)
  | .arg => do return .arg (← Access.arg)

theorem guarded (k : Kind) : Access.Guarded k.access k.read := by
  cases k with
  | bool => exact Access.guardedReturn _ Access.guardedBool
  | u8 => exact Access.guardedReturn _ Access.guardedU8
  | u16 => exact Access.guardedReturn _ Access.guardedU16
  | u32 => exact Access.guardedReturn _ Access.guardedU32
  | float => exact Access.guardedReturn _ Access.guardedFloat
  | text => exact Access.guardedReturn _ Access.guardedText
  | blob => exact Access.guardedReturn _ Access.guardedBlob
  | texts => exact Access.guardedReturn _ Access.guardedTexts
  | arg => exact Access.guardedReturn _ Access.guardedArg

theorem takes {v : Value} {k : Kind} (kind : v.kind? = some k) (fits : v.encode.length < UInt32.size) :
    Read.Takes k.read v.encode v := by
  cases v with
  | bool b => cases kind; exact Read.takesReturn Value.bool (Read.takesBool b)
  | u8 n => cases kind; exact Read.takesReturn Value.u8 (Read.takesU8 n)
  | u16 n => cases kind; exact Read.takesReturn Value.u16 (Read.takesU16 n)
  | u32 n => cases kind; exact Read.takesReturn Value.u32 (Read.takesU32 n)
  | float bits => cases kind; exact Read.takesReturn Value.float (Read.takesFloat bits)
  | text s => cases kind; exact Read.takesReturn Value.text (Read.takesText fits)
  | blob bytes => cases kind; exact Read.takesReturn Value.blob (Read.takesBlob (Read.fitsOfBlob fits))
  | texts items => cases kind; exact Read.takesReturn Value.texts (Read.takesTexts fits)
  | arg a => cases kind; exact Read.takesReturn Value.arg (Read.takesArg fits)
  | u8s | u16s | args | raw => cases kind

end Kind

structure Reading where
  answer : Except DecodeError Value
  consumed : Nat
  remaining : Nat

def readings (length : Nat) : List Kind → Bytes → List Reading
  | [], _ => []
  | k :: kinds, bytes =>
    let (answer, rest) := Read.run k.read bytes
    ⟨answer, length - rest.length, rest.length⟩ :: readings length kinds rest

structure Reader where
  length : Nat
  rest : Bytes

namespace Reader

def on (payload : Bytes) : Reader := ⟨payload.length, payload⟩

def remaining (r : Reader) : Nat := r.rest.length

def consumed? (r : Reader) : Option Nat := if r.remaining ≤ r.length then some (r.length - r.remaining) else none

def readAll (r : Reader) : List Kind → Option (List Reading)
  | [] => some []
  | k :: kinds => do
    let (answer, rest) ← k.access.run r.rest
    let after : Reader := { r with rest }
    let consumed ← after.consumed?
    let later ← after.readAll kinds
    return ⟨answer, consumed, after.remaining⟩ :: later

theorem readAllReadings {length : Nat} {bytes : Bytes} (within : bytes.length ≤ length) (kinds : List Kind) :
    (⟨length, bytes⟩ : Reader).readAll kinds = some (readings length kinds bytes) := by
  induction kinds generalizing bytes with
  | nil => rfl
  | cons k kinds ih =>
    have left : (Read.run k.read bytes).2.length ≤ length := Nat.le_trans (k.guarded.onward bytes).length_le within
    have consumed : (⟨length, (Read.run k.read bytes).2⟩ : Reader).consumed? =
        some (length - (Read.run k.read bytes).2.length) := if_pos left
    simp only [readAll, k.guarded.same, Option.bind_eq_bind, Option.bind_some, consumed, ih left, remaining, readings]
    rfl

end Reader

theorem readingsWithin {length : Nat} {bytes : Bytes} (within : bytes.length ≤ length) {kinds : List Kind} :
    ∀ s ∈ readings length kinds bytes, length - bytes.length ≤ s.consumed ∧ s.consumed + s.remaining = length := by
  induction kinds generalizing bytes with
  | nil => exact nofun
  | cons k kinds ih =>
    have left := (k.guarded.onward bytes).length_le
    refine List.forall_mem_cons.2 ⟨⟨?_, ?_⟩, fun s member => ?_⟩
    · change length - bytes.length ≤ length - (Read.run k.read bytes).2.length
      omega
    · change length - (Read.run k.read bytes).2.length + (Read.run k.read bytes).2.length = length
      omega
    · obtain ⟨onward, sum⟩ := ih (Nat.le_trans left within) s member
      exact ⟨by omega, sum⟩

theorem readingsAscend {length : Nat} {bytes : Bytes} (within : bytes.length ≤ length) (kinds : List Kind) :
    ((readings length kinds bytes).map Reading.consumed).Pairwise (· ≤ ·) := by
  induction kinds generalizing bytes with
  | nil => exact .nil
  | cons k kinds ih =>
    have left := Nat.le_trans (k.guarded.onward bytes).length_le within
    refine List.pairwise_cons.2 ⟨fun n member => ?_, ih left⟩
    obtain ⟨s, later, rfl⟩ := List.mem_map.1 member
    exact (readingsWithin left s later).1

theorem readingsLength (length : Nat) (kinds : List Kind) (bytes : Bytes) :
    (readings length kinds bytes).length = kinds.length := by
  induction kinds generalizing bytes with
  | nil => rfl
  | cons k kinds ih => exact congrArg (· + 1) (ih _)

theorem readingsTaken {values : List Value} {kinds : List Kind} (typed : values.map Value.kind? = kinds.map some)
    (fits : ∀ v ∈ values, v.encode.length < UInt32.size) (f : Frame) {length : Nat}
    (whole : f.payload.length + (values.flatMap Value.encode).length = length) :
    (readings length kinds (values.flatMap Value.encode)).map Reading.answer = values.map .ok ∧
      Frame.bodyLengths.go f values =
        f.bodyLength :: (readings length kinds (values.flatMap Value.encode)).map (·.consumed + 1) := by
  induction values generalizing kinds f with
  | nil =>
    cases List.map_eq_nil_iff.1 typed.symm
    exact ⟨rfl, rfl⟩
  | cons v rest ih =>
    obtain ⟨k, kinds, rfl, kind, typed⟩ := List.map_eq_cons_iff.1 typed.symm
    have taken := Kind.takes kind.symm (fits v List.mem_cons_self) (rest.flatMap Value.encode)
    rw [List.flatMap_cons, List.length_append] at whole
    have put : (f.put v).payload.length = f.payload.length + v.encode.length := List.length_append
    obtain ⟨answers, lengths⟩ := ih typed.symm (fun w member => fits w (List.mem_cons_of_mem _ member)) (f.put v)
      (by rw [put]; omega)
    have ends : (f.put v).bodyLength = length - (rest.flatMap Value.encode).length + 1 := by
      rw [Frame.bodyLength, put]
      omega
    rw [List.flatMap_cons, readings, taken, Frame.bodyLengths.go, lengths, ends]
    simp only [List.map_cons, answers]
    exact ⟨trivial, trivial⟩

/-- A frame of values is its length, the opcode and the values as written, and grows by each of them; its reader,
which never breaks off, gives them back one after the other and stands where the frame ended behind each. From any
other payload it never breaks off either, goes back or leaves the payload, whatever it reads and fails to read. -/
theorem sequencesReadBack (opcode : UInt8) :
    (∀ (values : List Value) (kinds : List Kind), values.map Value.kind? = kinds.map some →
      (Frame.compose opcode values).Fits →
      let f := Frame.compose opcode values
      f.encode = Bytes.ofNat 4 f.bodyLength ++ opcode :: values.flatMap Value.encode ∧
      Bytes.toNat (f.encode.take 4) = 1 + (values.flatMap Value.encode).length ∧
      Frame.bodyLengths opcode values =
        (List.range (values.length + 1)).map (fun k => 1 + ((values.take k).flatMap Value.encode).length) ∧
      ∃ steps, (Reader.on f.payload).readAll kinds = some steps ∧ steps.map Reading.answer = values.map .ok ∧
        Frame.bodyLengths opcode values = 1 :: steps.map (·.consumed + 1) ∧
        ∀ s ∈ steps, s.consumed + s.remaining = f.payload.length) ∧
    ∀ (payload : Bytes) (kinds : List Kind), ∃ steps, (Reader.on payload).readAll kinds = some steps ∧
      steps = readings payload.length kinds payload ∧ steps.length = kinds.length ∧
      (steps.map Reading.consumed).Pairwise (· ≤ ·) ∧
      ∀ s ∈ steps, s.consumed ≤ payload.length ∧ s.consumed + s.remaining = payload.length := by
  constructor
  · intro values kinds typed fits f
    have composed : f = ⟨opcode, values.flatMap Value.encode⟩ := Frame.composed opcode values
    have length : f.bodyLength = 1 + (values.flatMap Value.encode).length := congrArg Frame.bodyLength composed
    have small : f.bodyLength < UInt32.size := fits
    have written : f.encode = Bytes.ofNat 4 f.bodyLength ++ opcode :: values.flatMap Value.encode := by
      rw [composed]
      rfl
    have each : ∀ v ∈ values, v.encode.length < UInt32.size := by
      intro v member
      have within : v.encode.length ≤ (values.flatMap Value.encode).length := Read.lengthOfItem member
      omega
    obtain ⟨answers, lengths⟩ := readingsTaken typed each ⟨opcode, []⟩ (Nat.zero_add _)
    have payload : f.payload = values.flatMap Value.encode := congrArg Frame.payload composed
    refine ⟨written, ?_, Frame.bodyLengthsFrom ⟨opcode, []⟩ values, _, Reader.readAllReadings (Nat.le_refl _) kinds, ?_, ?_,
      fun s member => (readingsWithin (Nat.le_refl _) s member).2⟩
    · have front : (Bytes.ofNat 4 f.bodyLength).length = 4 := Bytes.lengthOfNat 4 _
      rw [written, List.take_left' front, Bytes.toNatOfNat, Nat.mod_eq_of_lt (show f.bodyLength < Bytes.span 4 from small),
        length]
    · rw [payload]
      exact answers
    · rw [payload]
      exact lengths
  · intro payload kinds
    refine ⟨_, Reader.readAllReadings (Nat.le_refl _) kinds, rfl, ?_, readingsAscend (Nat.le_refl _) kinds, fun s member => ?_⟩
    · exact readingsLength payload.length kinds payload
    · obtain ⟨_, sum⟩ := readingsWithin (Nat.le_refl _) s member
      exact ⟨by omega, sum⟩

theorem nestedValuesReadBack :
    let values : List Value := [.texts ["a", ""], .float 0x7FF8000000000001, .arg (.text "é"), .blob [7, 0], .bool true]
    let kinds : List Kind := [.texts, .float, .arg, .blob, .bool]
    let f := Frame.compose 0x2C values
    values.map Value.kind? = kinds.map some ∧ f.Fits ∧ Bytes.toNat (f.encode.take 4) = 36 ∧
      ∃ steps, (Reader.on f.payload).readAll kinds = some steps ∧ steps.map Reading.answer = values.map .ok ∧
        steps.map (·.consumed + 1) = [14, 22, 29, 35, 36] := by
  intro values kinds f
  have typed : values.map Value.kind? = kinds.map some := by decide
  have fits : f.Fits := by decide
  obtain ⟨_, prefixed, _, steps, read, answers, lengths, _⟩ := (sequencesReadBack 0x2C).1 values kinds typed fits
  have ends : Frame.bodyLengths 0x2C values = 1 :: [14, 22, 29, 35, 36] := by decide
  exact ⟨typed, fits, prefixed.trans (by decide), steps, read, answers, (List.cons.inj (lengths.symm.trans ends)).2⟩

example : (readings 9 [.texts, .u16, .u8] [1, 0, 0, 0, 9, 0, 0, 0, 5]).map Reading.consumed = [8, 8, 9] := by decide

end Payload

end RobotLink
