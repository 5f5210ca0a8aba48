import RobotLink.Proofs.FrameOutcomes
import RobotLink.Proofs.PayloadLanguage

/-! What is lost of a frame. The widths and the frame alone decide it: a payload that a message fills
is kept whole, one that a message begins is kept up to there, and of any other every byte is lost. -/
namespace RobotLink

namespace Message

theorem adaptFails {read : Read Message} {payload rest : Bytes} {e : DispatchError}
    (h : (ExceptT.adapt DispatchError.decode read : ExceptT DispatchError (StateM Bytes) Message) payload =
      (.error e, rest)) : ∃ cause, e = .decode cause := by
  change StateT.map (Except.mapError DispatchError.decode) read payload = _ at h
  rcases done : read payload with ⟨result, left⟩
  simp only [StateT.map, done] at h
  cases result with
  | ok found => cases h
  | error cause =>
    cases h
    exact ⟨cause, rfl⟩

theorem decodeFails {widths : WidthTable} {op : Opcode} {payload rest : Bytes} {e : DispatchError}
    (h : decode widths op payload = (.error e, rest)) :
    op.isSimple ∧ widths.get? op = none ∧ e = .missingWidth op ∨ ∃ cause, e = .decode cause := by
  by_cases simple : op.isSimple
  · rw [decode, readSimple simple] at h
    split at h
    next => exact .inr (adaptFails h)
    next => exact .inr (adaptFails h)
    next none =>
      cases h
      exact .inl ⟨simple, none, rfl⟩
  · cases op with
    | getScripts => cases h
    | rawSerial | command | luaScripts | uploadLua | runLua | uploadRunLua | runServerLua | removeServerLua
    | getServerLua | requestedScript | scriptRunning | luaText | luaMsg | luaCommand => exact .inr (adaptFails h)
    | _ => exact absurd rfl simple

theorem decodeUnmeasured {widths : WidthTable} {op : Opcode} (simple : op.isSimple) (none : widths.get? op = none)
    (payload : Bytes) : decode widths op payload = (.error (.missingWidth op), payload) := by
  rw [decode, readSimple simple, none]
  rfl

end Message

namespace Frame

def loss (widths : WidthTable) (f : Frame) : Option Discard :=
  f.discard? ((Dispatcher.fresh widths ()).dispatch f .empty).1

def Holds (widths : WidthTable) (f : Frame) (n : Nat) : Prop :=
  ∃ m : Message, m.opcode.code = f.opcode ∧ m.WellFormed widths ∧ n ≤ f.payload.length ∧
    m.payload = f.payload.take n

def Unknown (f : Frame) : Prop := ∀ op : Opcode, op.code ≠ f.opcode

def Unmeasured (widths : WidthTable) (f : Frame) : Prop :=
  ∃ op : Opcode, op.code = f.opcode ∧ op.isSimple ∧ widths.get? op = none

def lostWhole (f : Frame) (reason : DiscardReason) : Option Discard :=
  some ⟨f.opcode, f.payload.length, reason⟩

def lostBehind (f : Frame) (n : Nat) : Option Discard :=
  if n < f.payload.length then some ⟨f.opcode, f.payload.length - n, .desync⟩ else none

section
variable {widths : WidthTable} {f : Frame}

theorem unknownIff : Opcode.ofCode? f.opcode = none ↔ f.Unknown := by
  refine ⟨fun none op code => ?_, fun unknown => ?_⟩
  · rw [← code, Opcode.ofCodeCode] at none
    cases none
  · cases found : Opcode.ofCode? f.opcode with
    | none => rfl
    | some op => exact absurd (Opcode.codeOfCode found) (unknown op)

theorem lossOfUnknown (unknown : f.Unknown) : f.loss widths = f.lostWhole .unknownOpcode := by
  simp only [loss, Dispatcher.dispatch, unknownIff.2 unknown]
  rfl

theorem lossOfKnown {op : Opcode} (code : op.code = f.opcode) :
    f.loss widths =
      match Message.decode widths op f.payload with
      | (.ok _, rest) => f.lostBehind (f.payload.length - rest.length)
      | (.error e, _) => f.discard? (.error e) := by
  have known : Opcode.ofCode? f.opcode = some op := by rw [← code, Opcode.ofCodeCode]
  have fresh : (Dispatcher.fresh widths ()).widths = widths := rfl
  simp only [loss, Dispatcher.dispatch, known, fresh]
  rcases Message.decode widths op f.payload with ⟨_ | m, rest⟩ <;> rfl

theorem lossOfUnmeasured (unmeasured : f.Unmeasured widths) : f.loss widths = f.lostWhole .missingWidth := by
  obtain ⟨op, code, simple, none⟩ := unmeasured
  rw [lossOfKnown code, Message.decodeUnmeasured simple none]
  rfl

theorem lossOfHeld {n : Nat} (fits : f.Fits) (held : f.Holds widths n) : f.loss widths = f.lostBehind n := by
  obtain ⟨m, code, formed, within, same⟩ := held
  have length : m.payload.length = n := by rw [same, List.length_take_of_le within]
  have small : m.payload.length < UInt32.size := by
    unfold Fits bodyLength at fits
    omega
  have read := Message.decodePayload formed small (f.payload.drop n)
  rw [same, List.take_append_drop] at read
  simp only [lossOfKnown code, read, List.length_drop, Nat.sub_sub_self within]

inductive Verdict (widths : WidthTable) (f : Frame) : Option Discard → Prop
  | unknown (unknown : f.Unknown) : Verdict widths f (f.lostWhole .unknownOpcode)
  | unmeasured (unmeasured : f.Unmeasured widths) : Verdict widths f (f.lostWhole .missingWidth)
  | malformed : Verdict widths f (f.lostWhole .malformed)
  | held {n : Nat} (held : f.Holds widths n) : Verdict widths f (f.lostBehind n)

theorem verdict (widths : WidthTable) (f : Frame) : f.Verdict widths (f.loss widths) := by
  cases found : Opcode.ofCode? f.opcode with
  | none =>
    have unknown := unknownIff.1 found
    rw [lossOfUnknown unknown]
    exact .unknown unknown
  | some op =>
    have code := Opcode.codeOfCode found
    rw [lossOfKnown code]
    rcases decoded : Message.decode widths op f.payload with ⟨e | m, rest⟩
    · rcases Message.decodeFails decoded with ⟨simple, none, rfl⟩ | ⟨cause, rfl⟩
      · exact .unmeasured ⟨op, code, simple, none⟩
      · exact .malformed
    · obtain ⟨opcode, formed, front⟩ := Message.decodeRestores decoded
      have length := congrArg List.length front
      rw [List.length_append] at length
      have taken : f.payload.length - rest.length = m.payload.length := by omega
      refine .held ⟨m, by rw [opcode, code], formed, Nat.sub_le _ _, ?_⟩
      rw [taken]
      conv => rhs; rw [front]
      exact List.take_left.symm

end

structure Judged (widths : WidthTable) (f : Frame) (lost : Option Discard) : Prop where
  kept : lost = none ↔ f.Holds widths f.payload.length
  desync : ∀ bytes, lost = some ⟨f.opcode, bytes, .desync⟩ ↔
    ∃ n < f.payload.length, f.Holds widths n ∧ bytes = f.payload.length - n
  missingWidth : lost = f.lostWhole .missingWidth ↔ f.Unmeasured widths
  unknownOpcode : lost = f.lostWhole .unknownOpcode ↔ f.Unknown
  malformed : lost = f.lostWhole .malformed ↔
    (∀ n, ¬ f.Holds widths n) ∧ ¬ f.Unmeasured widths ∧ ¬ f.Unknown

theorem heldWhole {widths : WidthTable} {f : Frame} {n : Nat} (held : f.Holds widths n)
    (none : f.lostBehind n = none) : f.Holds widths f.payload.length := by
  obtain ⟨m, code, formed, within, same⟩ := held
  have whole : ¬ n < f.payload.length := by
    intro less
    rw [lostBehind, if_pos less] at none
    cases none
  have all : n = f.payload.length := by omega
  exact all ▸ ⟨m, code, formed, within, same⟩

theorem heldPart {f : Frame} {n : Nat} {lost : Discard} (some : f.lostBehind n = some lost) :
    n < f.payload.length ∧ lost = ⟨f.opcode, f.payload.length - n, .desync⟩ := by
  unfold lostBehind at some
  split at some
  next less => exact ⟨less, (Option.some.inj some).symm⟩
  next => cases some

theorem judged (widths : WidthTable) {f : Frame} (fits : f.Fits) : f.Judged widths (f.loss widths) := by
  have verdict := f.verdict widths
  have behind {n : Nat} {reason : DiscardReason} (same : f.lostBehind n = f.lostWhole reason) :
      reason = .desync := congrArg Discard.reason (heldPart same).2
  constructor
  case kept =>
    refine ⟨fun none => ?_, fun held => ?_⟩
    · generalize f.loss widths = lost at verdict none
      cases verdict with
      | unknown | unmeasured | malformed => cases none
      | held held => exact heldWhole held none
    · rw [lossOfHeld fits held]
      exact if_neg (Nat.lt_irrefl _)
  case desync =>
    refine fun bytes => ⟨fun some => ?_, ?_⟩
    · generalize f.loss widths = lost at verdict some
      cases verdict with
      | unknown | unmeasured | malformed => cases some
      | @held n held =>
        obtain ⟨less, same⟩ := heldPart some
        exact ⟨n, less, held, congrArg Discard.bytes same⟩
    · rintro ⟨n, less, held, rfl⟩
      rw [lossOfHeld fits held]
      exact if_pos less
  case missingWidth =>
    refine ⟨fun whole => ?_, lossOfUnmeasured⟩
    generalize f.loss widths = lost at verdict whole
    cases verdict with
    | unmeasured unmeasured => exact unmeasured
    | unknown | malformed => cases whole
    | held => cases behind whole
  case unknownOpcode =>
    refine ⟨fun whole => ?_, lossOfUnknown⟩
    generalize f.loss widths = lost at verdict whole
    cases verdict with
    | unknown unknown => exact unknown
    | unmeasured | malformed => cases whole
    | held => cases behind whole
  case malformed =>
    refine ⟨fun whole => ⟨fun n held => ?_, fun unmeasured => ?_, fun unknown => ?_⟩, ?_⟩
    · cases behind ((lossOfHeld fits held).symm.trans whole)
    · cases (lossOfUnmeasured unmeasured).symm.trans whole
    · cases (lossOfUnknown unknown).symm.trans whole
    · rintro ⟨unheld, measured, known⟩
      generalize f.loss widths = lost at verdict
      cases verdict with
      | unknown unknown => exact absurd unknown known
      | unmeasured unmeasured => exact absurd unmeasured measured
      | malformed => rfl
      | held held => exact absurd held (unheld _)

end Frame

end RobotLink
