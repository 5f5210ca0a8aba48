import RobotLink.Proofs.SavedLayout
import RobotLink.SaveState

/-! Files of saved clocks. Whatever the compression is, as long as it gives back what it was given,
a file holds its snapshot and nothing else is accepted for it: each file is refused for the first
of its length, magic number, version, stream and layout that is not in order, or read. -/
namespace RobotLink
namespace Deflate

theorem literalReads {bytes : Bytes} (short : bytes.length ≤ literalLimit) {taken : Nat} (begun : taken ≠ 0)
    (front : UInt8) (rest : Bytes) (out : Array UInt8) :
    literal?
      ⟨front :: (Bytes.ofNat 2 bytes.length ++ Bytes.ofNat 2 (literalLimit - bytes.length) ++ bytes ++ rest), taken⟩
      out = some (out ++ bytes.toArray, ⟨rest, 0⟩) := by
  have span : Bytes.span 2 = literalLimit + 1 := rfl
  have low : Bytes.toNat (Bytes.ofNat 2 bytes.length) = bytes.length := by
    rw [Bytes.toNatOfNat, span, Nat.mod_eq_of_lt (Nat.lt_succ_of_le short)]
  have check : Bytes.toNat (Bytes.ofNat 2 (literalLimit - bytes.length)) = literalLimit - bytes.length := by
    rw [Bytes.toNatOfNat, span, Nat.mod_eq_of_lt (Nat.lt_succ_of_le (Nat.sub_le _ _))]
  have sum : bytes.length + (literalLimit - bytes.length) = 0xFFFF := Nat.add_sub_of_le short
  unfold literal? BitStream.align
  rw [if_neg begun, List.drop_one, List.tail_cons, List.append_assoc, List.append_assoc]
  simp only [Bytes.splitSome.2 ⟨rfl, Bytes.lengthOfNat 2 _⟩, bind, Option.bind, low, check, sum, ne_eq,
    not_true_eq_false, if_false, Bytes.splitSome.2 ⟨rfl, rfl⟩]
  rfl

theorem blockHead (last : Bool) (rest : Bytes) :
    (⟨(if last then 1 else 0) :: rest, 0⟩ : BitStream).bit? =
        some (if last then 1 else 0, ⟨(if last then 1 else 0) :: rest, 1⟩) ∧
      (⟨(if last then 1 else 0) :: rest, 1⟩ : BitStream).number? 2 =
        some (0, ⟨(if last then 1 else 0) :: rest, 3⟩) := by
  cases last <;> simp [BitStream.number?, BitStream.bit?]

theorem blocksLiteral (last : Bool) {bytes : Bytes} (short : bytes.length ≤ literalLimit) (rest : Bytes) (bound : Nat)
    (out : Array UInt8) :
    blocks (bound + 1) ⟨literalBlock last bytes ++ rest, 0⟩ out =
      if last then some (out ++ bytes.toArray) else blocks bound ⟨rest, 0⟩ (out ++ bytes.toArray) := by
  have read := literalReads short (show (3 : Nat) ≠ 0 by decide) (if last then 1 else 0) rest out
  rw [blocks, literalBlock]
  simp only [List.cons_append, blockHead, bind, Option.bind, block?, read]
  cases last <;> rfl

theorem deflateReads (bytes : Bytes) {bound : Nat} (enough : (deflate bytes).length ≤ bound) (out : Array UInt8) :
    blocks bound ⟨deflate bytes, 0⟩ out = some (out ++ bytes.toArray) := by
  fun_induction deflate bytes generalizing bound out with
  | case1 bytes short =>
    cases bound with
    | zero => cases enough
    | succ bound =>
      have whole := blocksLiteral true short [] bound out
      rw [List.append_nil] at whole
      exact whole
  | case2 bytes long ih =>
    cases bound with
    | zero => cases enough
    | succ bound =>
      have first : (bytes.take literalLimit).length ≤ literalLimit := List.length_take_le _ _
      have less : (deflate (bytes.drop literalLimit)).length ≤ bound := by
        simp only [literalBlock, List.length_append, List.length_cons] at enough
        omega
      rw [blocksLiteral false first, if_neg Bool.false_ne_true, ih less, Array.append_assoc,
        List.append_toArray (bytes.take literalLimit), List.take_append_drop]

theorem inflateDeflate (bytes : Bytes) : inflate (deflate bytes) = some bytes := by
  unfold inflate
  rw [deflateReads bytes (by omega), Option.map_some, Array.empty_append, List.toList_toArray]

end Deflate

namespace SaveState
variable {compress : Bytes → Bytes} {decompress : Bytes → Option Bytes} {file body : Bytes}

theorem decodeShort (short : file.length < headerLength) : decodeWith decompress file = .error .truncated := by
  rw [decodeWith, Bytes.splitNone.2 short]

theorem decodeForeign (whole : headerLength ≤ file.length) (foreign : file.take 4 ≠ magic) :
    decodeWith decompress file = .error .badMagic := by
  have parts : file.take headerLength ++ file.drop headerLength = file := List.take_append_drop _ _
  have length : (file.take headerLength).length = headerLength := List.length_take_of_le whole
  have own : (file.take headerLength).take 4 ≠ magic := by
    rwa [List.take_take]
  rw [decodeWith, Bytes.splitSome.2 ⟨parts.symm, length⟩]
  exact if_pos own

theorem decodeVersioned (decompress : Bytes → Option Bytes) (version : UInt32) (body : Bytes) :
    decodeWith decompress (magic ++ Bytes.ofNat 4 version.toNat ++ body) =
      if version ≠ formatVersion then .error (.version version)
      else
        match decompress body with
        | none => .error .decompress
        | some payload => (Layout.read payload).mapError .layout := by
  have length : (magic ++ Bytes.ofNat 4 version.toNat).length = headerLength := by
    rw [List.length_append, Bytes.lengthOfNat]
    rfl
  have small : version.toNat % Bytes.span 4 = version.toNat := Nat.mod_eq_of_lt version.toNat_lt
  have found : (Bytes.toNat (Bytes.ofNat 4 version.toNat)).toUInt32 = version := by
    rw [Bytes.toNatOfNat, small]
    exact UInt32.ofNat_toNat
  have own : (magic ++ Bytes.ofNat 4 version.toNat).take 4 = magic := List.take_left' rfl
  have number : (magic ++ Bytes.ofNat 4 version.toNat).drop 4 = Bytes.ofNat 4 version.toNat := List.drop_left' rfl
  rw [decodeWith, Bytes.splitSome.2 ⟨rfl, length⟩]
  dsimp only
  rw [own, number, found]
  exact if_neg (not_not_intro rfl)

theorem decodeBody (decompress : Bytes → Option Bytes) (body : Bytes) :
    decodeWith decompress (header ++ body) =
      match decompress body with
      | none => .error .decompress
      | some payload => (Layout.read payload).mapError .layout :=
  decodeVersioned decompress formatVersion body

theorem decodePayload {payload : Bytes} (inflates : decompress body = some payload) (s : ClockSnapshot) :
    decodeWith decompress (header ++ body) = .ok s ↔
      s.timers.length < UInt64.size ∧ Layout.put s <+: payload := by
  rw [decodeBody, inflates, ← Layout.readIff]
  dsimp only
  cases Layout.read payload with
  | error e => exact ⟨nofun, nofun⟩
  | ok found => exact ⟨fun h => by cases h; rfl, fun h => by cases h; rfl⟩

theorem decodeEncodeWith (inverse : ∀ payload, decompress (compress payload) = some payload) {s : ClockSnapshot}
    (countable : s.timers.length < UInt64.size) : decodeWith decompress (encodeWith compress s) = .ok s :=
  (decodePayload (inverse _) s).2 ⟨countable, List.prefix_rfl⟩

theorem decodeEncode {s : ClockSnapshot} (countable : s.timers.length < UInt64.size) : decode (encode s) = .ok s :=
  decodeEncodeWith Deflate.inflateDeflate countable

theorem headed (file : Bytes) :
    file.length < headerLength ∨ headerLength ≤ file.length ∧ file.take 4 ≠ magic ∨
      ∃ (version : UInt32) (body : Bytes), file = magic ++ Bytes.ofNat 4 version.toNat ++ body := by
  obtain short | whole := Nat.lt_or_ge file.length headerLength
  · exact .inl short
  · by_cases own : file.take 4 = magic
    · have length : ((file.drop 4).take 4).length = 4 := by
        rw [List.length_take_of_le]
        rw [List.length_drop]
        exact Nat.le_sub_of_add_le whole
      have small : Bytes.toNat ((file.drop 4).take 4) < UInt32.size := by
        have within := Bytes.toNatLt ((file.drop 4).take 4)
        rwa [length] at within
      have number : Bytes.ofNat 4 (Bytes.toNat ((file.drop 4).take 4)) = (file.drop 4).take 4 := by
        have inverse := Bytes.ofNatToNat ((file.drop 4).take 4)
        rwa [length] at inverse
      have version : (Bytes.toNat ((file.drop 4).take 4)).toUInt32.toNat = Bytes.toNat ((file.drop 4).take 4) :=
        UInt32.toNat_ofNat_of_lt small
      refine .inr (.inr ⟨(Bytes.toNat ((file.drop 4).take 4)).toUInt32, (file.drop 4).drop 4, ?_⟩)
      rw [version, number, ← own, List.append_assoc, List.take_append_drop, List.take_append_drop]
    · exact .inr (.inl ⟨whole, own⟩)

theorem refusal {e : SaveStateError} (refused : decodeWith decompress file = .error e) :
    e = .truncated ∧ file.length < headerLength ∨
      e = .badMagic ∧ headerLength ≤ file.length ∧ file.take 4 ≠ magic ∨
      (∃ found body, e = .version found ∧ found ≠ formatVersion ∧ file = magic ++ Bytes.ofNat 4 found.toNat ++ body) ∨
      ∃ body, file = header ++ body ∧ (e = .decompress ∨ ∃ cause, e = .layout cause) := by
  obtain short | ⟨whole, foreign⟩ | ⟨version, body, rfl⟩ := headed file
  · rw [decodeShort short] at refused
    cases refused
    exact .inl ⟨rfl, short⟩
  · rw [decodeForeign whole foreign] at refused
    cases refused
    exact .inr (.inl ⟨rfl, whole, foreign⟩)
  · rw [decodeVersioned] at refused
    split at refused
    next other =>
      cases refused
      exact .inr (.inr (.inl ⟨version, body, rfl, other, rfl⟩))
    next own =>
      refine .inr (.inr (.inr ⟨body, by rw [Decidable.not_not.1 own]; rfl, ?_⟩))
      split at refused
      · cases refused
        exact .inl rfl
      next payload _ =>
        cases read : Layout.read payload with
        | error cause =>
          rw [read] at refused
          cases refused
          exact .inr ⟨cause, rfl⟩
        | ok s =>
          rw [read] at refused
          cases refused

theorem truncatedIff : decodeWith decompress file = .error .truncated ↔ file.length < headerLength := by
  refine ⟨fun refused => ?_, decodeShort⟩
  obtain ⟨-, short⟩ | ⟨h, -⟩ | ⟨_, _, h, -⟩ | ⟨_, _, h | ⟨_, h⟩⟩ := refusal refused
  · exact short
  all_goals cases h

theorem badMagicIff :
    decodeWith decompress file = .error .badMagic ↔ headerLength ≤ file.length ∧ file.take 4 ≠ magic := by
  refine ⟨fun refused => ?_, fun ⟨whole, foreign⟩ => decodeForeign whole foreign⟩
  obtain ⟨h, -⟩ | ⟨-, blamed⟩ | ⟨_, _, h, -⟩ | ⟨_, _, h | ⟨_, h⟩⟩ := refusal refused
  · cases h
  · exact blamed
  all_goals cases h

theorem versionIff {found : UInt32} :
    decodeWith decompress file = .error (.version found) ↔
      found ≠ formatVersion ∧ ∃ body, file = magic ++ Bytes.ofNat 4 found.toNat ++ body := by
  constructor
  · intro refused
    obtain ⟨h, -⟩ | ⟨h, -⟩ | ⟨_, body, h, other, written⟩ | ⟨_, _, h | ⟨_, h⟩⟩ := refusal refused
    · cases h
    · cases h
    · cases h
      exact ⟨other, body, written⟩
    all_goals cases h
  · rintro ⟨other, body, rfl⟩
    rw [decodeVersioned, if_pos other]

theorem payloadRefusal {payload : Bytes} (inflates : decompress body = some payload)
    (unread : ∀ s : ClockSnapshot, ¬(s.timers.length < UInt64.size ∧ Layout.put s <+: payload)) :
    ∃ cause, decodeWith decompress (header ++ body) = .error (.layout cause) := by
  rw [decodeBody, inflates]
  dsimp only
  cases read : Layout.read payload with
  | error cause => exact ⟨cause, rfl⟩
  | ok s => exact absurd (Layout.readIff.1 read) (unread s)

/-- Both directions of the file format. What is written is read back, whatever the snapshot holds; behind
the header exactly the layouts of snapshots are read, with anything after them; a header that is short,
foreign or of another version is refused as such, in this order, whatever stands behind it. -/
theorem fileFormat (inverse : ∀ payload, decompress (compress payload) = some payload) :
    (∀ s : ClockSnapshot, s.timers.length < UInt64.size → decodeWith decompress (encodeWith compress s) = .ok s) ∧
      (∀ body payload, decompress body = some payload →
        (∀ s, decodeWith decompress (header ++ body) = .ok s ↔
          s.timers.length < UInt64.size ∧ Layout.put s <+: payload) ∧
        ((∀ s : ClockSnapshot, ¬(s.timers.length < UInt64.size ∧ Layout.put s <+: payload)) →
          ∃ cause, decodeWith decompress (header ++ body) = .error (.layout cause))) ∧
      (∀ s, (Layout.put s).length = 44 + 29 * s.timers.length) ∧
      (∀ file, decodeWith decompress file = .error .truncated ↔ file.length < headerLength) ∧
      (∀ file, decodeWith decompress file = .error .badMagic ↔ headerLength ≤ file.length ∧ file.take 4 ≠ magic) ∧
      ∀ file found, decodeWith decompress file = .error (.version found) ↔
        found ≠ formatVersion ∧ ∃ body, file = magic ++ Bytes.ofNat 4 found.toNat ++ body :=
  ⟨fun _ countable => decodeEncodeWith inverse countable,
    fun _ _ inflates => ⟨decodePayload inflates, payloadRefusal inflates⟩,
    Layout.lengthPut, fun _ => truncatedIff, fun _ => badMagicIff, fun _ _ => versionIff⟩

theorem fileFormatDeflate :
    let s : ClockSnapshot := ⟨⟨0, 2000000⟩, 0, 8000000, .high, [⟨7, true, 5, 1, ⟨1, 0⟩⟩]⟩
    (∀ payload, Deflate.inflate (Deflate.deflate payload) = some payload) ∧
      decodeWith Deflate.inflate (encodeWith Deflate.deflate s) = .ok s ∧
      decodeWith Deflate.inflate (header ++ Deflate.deflate (Layout.put s ++ [0])) = .ok s ∧
      (∃ cause, decodeWith Deflate.inflate
        (header ++ Deflate.deflate (List.replicate 36 0 ++ Bytes.ofNat 8 (UInt64.size - 1) ++ [])) =
          .error (.layout cause)) ∧
      decodeWith Deflate.inflate [0x52, 0x50, 0x37] = .error .truncated := by
  obtain ⟨whole, behind, -, short, -, -⟩ := fileFormat Deflate.inflateDeflate
  refine ⟨Deflate.inflateDeflate, whole _ (by decide),
    ((behind _ _ (Deflate.inflateDeflate _)).1 _).2 ⟨by decide, List.prefix_append _ _⟩,
    (behind _ _ (Deflate.inflateDeflate _)).2 ?_, (short _).2 (by decide)⟩
  rintro s ⟨countable, written⟩
  obtain ⟨declared, room⟩ := Layout.countDeclared (by rfl) (by decide) countable written
  rw [declared] at room
  exact absurd room (by decide)

end SaveState

end RobotLink
