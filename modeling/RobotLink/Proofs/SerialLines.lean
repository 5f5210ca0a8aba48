import Mathlib.Data.List.Induction
import RobotLink.SerialText

/-! The serial stream behind its lines. Every line stands for bytes of the stream, ended by a line feed or
cut off at the greatest length, and these joined in order with what is pending are the stream, however it
came in. -/
namespace RobotLink
namespace LineBuffer

inductive RawLine where
  | ended (bytes : Bytes)
  | cut (bytes : Bytes)
  deriving DecidableEq, Repr

namespace RawLine

def bytes : RawLine → Bytes
  | .ended bs | .cut bs => bs

def wire : RawLine → Bytes
  | .ended bs => bs ++ [lineFeed]
  | .cut bs => bs

def WellFormed : RawLine → Prop
  | .ended bs => lineFeed ∉ bs
  | .cut bs => lineFeed ∉ bs ∧ bs.length = maxLength

def text (line : RawLine) : String := toText line.bytes

end RawLine

def pushNext (done : List String × LineBuffer) (bytes : Bytes) : List String × LineBuffer :=
  let (lines, buffer) := done.2.push bytes
  (done.1 ++ lines, buffer)

def pushAll (chunks : List Bytes) : List String × LineBuffer := chunks.foldl pushNext ([], empty)

def rawNext (done : List RawLine × LineBuffer) (bytes : Bytes) : List RawLine × LineBuffer :=
  let (lines, rest) := terminated (done.2.pending ++ bytes)
  let (cuts, rest) := cutLong rest
  (done.1 ++ (lines.map .ended ++ cuts.map .cut), ⟨rest⟩)

def rawAll (chunks : List Bytes) : List RawLine × LineBuffer := chunks.foldl rawNext ([], empty)

def emitted (chunks : List Bytes) : List String :=
  let (lines, buffer) := pushAll chunks
  lines ++ buffer.flush.1.toList

def rawEmitted (chunks : List Bytes) : List Bytes :=
  let (lines, buffer) := rawAll chunks
  lines.map RawLine.bytes ++ if buffer.pending = [] then [] else [buffer.pending]

section
variable {a b bs line rest tail : Bytes} {lines cuts : List Bytes} {chunks : List Bytes}

theorem terminatedFeed (rest : Bytes) :
    terminated (lineFeed :: rest) = ([] :: (terminated rest).1, (terminated rest).2) := by
  rw [terminated, if_pos rfl]

theorem terminatedFree (free : lineFeed ∉ a) (b : Bytes) :
    terminated (a ++ b) =
      match terminated b with
      | ([], tail) => ([], a ++ tail)
      | (line :: lines, tail) => ((a ++ line) :: lines, tail) := by
  induction a with
  | nil => rcases same : terminated b with ⟨_ | _, _⟩ <;> simp [same]
  | cons c a ih =>
    obtain ⟨other, free⟩ := List.ne_and_not_mem_of_not_mem_cons free
    rw [List.cons_append, terminated, if_neg (Ne.symm other), ih free]
    rcases terminated b with ⟨_ | _, _⟩ <;> rfl

theorem terminatedIff :
    terminated bs = (lines, tail) ↔
      bs = lines.flatMap (· ++ [lineFeed]) ++ tail ∧ (∀ line ∈ lines, lineFeed ∉ line) ∧ lineFeed ∉ tail := by
  constructor
  · intro done
    induction bs generalizing lines tail with
    | nil =>
      cases done
      exact ⟨rfl, nofun, nofun⟩
    | cons c rest ih =>
      obtain ⟨whole, free, last⟩ := ih rfl
      by_cases feed : c = lineFeed
      · subst feed
        rw [terminatedFeed] at done
        cases done
        refine ⟨?_, List.forall_mem_cons.2 ⟨nofun, free⟩, last⟩
        conv => lhs; rw [whole]
        rfl
      · rw [terminated, if_neg feed] at done
        rcases same : terminated rest with ⟨_ | ⟨first, others⟩, behind⟩
        all_goals
          rw [same] at done whole free last
          cases done
        · refine ⟨?_, nofun, List.not_mem_cons_of_ne_of_not_mem (Ne.symm feed) last⟩
          conv => lhs; rw [whole]
          rfl
        · obtain ⟨own, others⟩ := List.forall_mem_cons.1 free
          refine ⟨?_, List.forall_mem_cons.2 ⟨?_, others⟩, last⟩
          · conv => lhs; rw [whole]
            rfl
          · exact List.not_mem_cons_of_ne_of_not_mem (Ne.symm feed) own
  · rintro ⟨rfl, free, last⟩
    induction lines with
    | nil =>
      have alone := terminatedFree last []
      rw [List.append_nil] at alone
      simpa [terminated] using alone
    | cons line lines ih =>
      obtain ⟨own, others⟩ := List.forall_mem_cons.1 free
      rw [List.flatMap_cons, List.append_assoc, List.append_assoc, terminatedFree own, List.singleton_append,
        terminatedFeed, ih others]
      dsimp only
      rw [List.append_nil]

theorem terminatedMeets (bs : Bytes) :
    bs = (terminated bs).1.flatMap (· ++ [lineFeed]) ++ (terminated bs).2 ∧
      (∀ line ∈ (terminated bs).1, lineFeed ∉ line) ∧ lineFeed ∉ (terminated bs).2 :=
  terminatedIff.1 rfl

theorem terminatedAppend (a b : Bytes) :
    terminated (a ++ b) =
      ((terminated a).1 ++ (terminated ((terminated a).2 ++ b)).1, (terminated ((terminated a).2 ++ b)).2) := by
  obtain ⟨whole, free, _⟩ := terminatedMeets a
  obtain ⟨joined, also, last⟩ := terminatedMeets ((terminated a).2 ++ b)
  refine terminatedIff.2 ⟨?_, List.forall_mem_append.2 ⟨free, also⟩, last⟩
  conv => lhs; rw [whole, List.append_assoc, joined]
  rw [List.flatMap_append, List.append_assoc]

theorem splitOnTerminated (bs : Bytes) : bs.splitOn lineFeed = (terminated bs).1 ++ [(terminated bs).2] := by
  obtain ⟨whole, free, last⟩ := terminatedMeets bs
  have joined : bs = [lineFeed].intercalate ((terminated bs).1 ++ [(terminated bs).2]) := by
    conv => lhs; rw [whole]
    generalize (terminated bs).1 = lines
    induction lines with
    | nil => simp
    | cons line lines ih =>
      rw [List.flatMap_cons, List.append_assoc, ih, List.cons_append, List.intercalate_cons_of_ne_nil (by simp)]
  conv => lhs; rw [joined]
  exact List.splitOn_intercalate _ (List.forall_mem_append.2 ⟨free, List.forall_mem_singleton.2 last⟩) (by simp)

theorem cutLongShort (short : bs.length < maxLength) : cutLong bs = ([], bs) := by
  rw [cutLong]
  split
  next => rfl
  next head tail found =>
    obtain ⟨rfl, length⟩ := Bytes.splitSome.1 found
    rw [List.length_append] at short
    omega

theorem cutLongFull (full : a.length = maxLength) (b : Bytes) :
    cutLong (a ++ b) = (a :: (cutLong b).1, (cutLong b).2) := by
  have found : Bytes.split? maxLength (a ++ b) = some (a, b) := Bytes.splitSome.2 ⟨rfl, full⟩
  rw [cutLong]
  split
  next none => rw [found] at none; cases none
  next same =>
    rw [found] at same
    cases same
    rfl

theorem cutLongIff :
    cutLong bs = (cuts, rest) ↔
      bs = cuts.flatten ++ rest ∧ (∀ cut ∈ cuts, cut.length = maxLength) ∧ rest.length < maxLength := by
  constructor
  · intro done
    induction length : bs.length using Nat.strongRecOn generalizing bs cuts with
    | ind n ih =>
      rcases Nat.lt_or_ge bs.length maxLength with short | long
      · rw [cutLongShort short] at done
        cases done
        exact ⟨rfl, nofun, short⟩
      · have full : (bs.take maxLength).length = maxLength := List.length_take_of_le long
        rw [← List.take_append_drop maxLength bs, cutLongFull full] at done
        cases done
        have less : (bs.drop maxLength).length < n := by
          rw [List.length_drop]
          simp only [maxLength] at long ⊢
          omega
        obtain ⟨whole, others, short⟩ := ih _ less rfl rfl
        refine ⟨?_, List.forall_mem_cons.2 ⟨full, others⟩, short⟩
        rw [List.flatten_cons, List.append_assoc, ← whole, List.take_append_drop]
  · rintro ⟨rfl, full, short⟩
    induction cuts with
    | nil => exact cutLongShort short
    | cons cut cuts ih =>
      obtain ⟨own, others⟩ := List.forall_mem_cons.1 full
      rw [List.flatten_cons, List.append_assoc, cutLongFull own, ih others]

theorem cutLongMeets (bs : Bytes) :
    bs = (cutLong bs).1.flatten ++ (cutLong bs).2 ∧ (∀ cut ∈ (cutLong bs).1, cut.length = maxLength) ∧
      (cutLong bs).2.length < maxLength :=
  cutLongIff.1 rfl

theorem cutLongAppend (a b : Bytes) :
    cutLong (a ++ b) = ((cutLong a).1 ++ (cutLong ((cutLong a).2 ++ b)).1, (cutLong ((cutLong a).2 ++ b)).2) := by
  obtain ⟨whole, full, _⟩ := cutLongMeets a
  obtain ⟨joined, also, short⟩ := cutLongMeets ((cutLong a).2 ++ b)
  refine cutLongIff.2 ⟨?_, List.forall_mem_append.2 ⟨full, also⟩, short⟩
  conv => lhs; rw [whole, List.append_assoc, joined]
  rw [List.flatten_append, List.append_assoc]

theorem pushAllNext (chunks : List Bytes) (bytes : Bytes) :
    pushAll (chunks ++ [bytes]) = pushNext (pushAll chunks) bytes :=
  List.foldl_append

theorem rawAllNext (chunks : List Bytes) (bytes : Bytes) : rawAll (chunks ++ [bytes]) = rawNext (rawAll chunks) bytes :=
  List.foldl_append

theorem pushAllRaw (chunks : List Bytes) :
    pushAll chunks = ((rawAll chunks).1.map RawLine.text, (rawAll chunks).2) := by
  induction chunks using List.reverseRecOn with
  | nil => rfl
  | append_singleton chunks bytes ih =>
    rw [pushAllNext, rawAllNext, ih]
    simp only [pushNext, rawNext, push, segments, List.map_append, List.map_map]
    rfl

theorem emittedRaw (chunks : List Bytes) : emitted chunks = (rawEmitted chunks).map toText := by
  simp only [emitted, rawEmitted, pushAllRaw, flush, List.map_append, List.map_map, List.isEmpty_iff]
  refine congrArg (_ ++ ·) ?_
  split <;> rfl

structure Conserves (stream : Bytes) (r : List RawLine × LineBuffer) : Prop where
  whole : stream = r.1.flatMap RawLine.wire ++ r.2.pending
  formed : ∀ line ∈ r.1, line.WellFormed
  free : lineFeed ∉ r.2.pending
  short : r.2.pending.length < maxLength

theorem wireEnded (lines : List Bytes) : (lines.map RawLine.ended).flatMap RawLine.wire = lines.flatMap (· ++ [lineFeed]) := by
  rw [List.flatMap_map]
  rfl

theorem wireCut (cuts : List Bytes) : (cuts.map RawLine.cut).flatMap RawLine.wire = cuts.flatten := by
  rw [List.flatMap_map]
  exact List.flatMap_id' ..

theorem Conserves.next {stream : Bytes} {r : List RawLine × LineBuffer} (conserves : Conserves stream r) (bytes : Bytes) :
    Conserves (stream ++ bytes) (rawNext r bytes) := by
  obtain ⟨whole, free, last⟩ := terminatedMeets (r.2.pending ++ bytes)
  obtain ⟨joined, full, short⟩ := cutLongMeets (terminated (r.2.pending ++ bytes)).2
  constructor
  case whole =>
    simp only [rawNext, List.flatMap_append, wireEnded, wireCut, List.append_assoc]
    rw [← joined, ← whole, ← List.append_assoc, ← conserves.whole]
  case formed =>
    refine List.forall_mem_append.2 ⟨conserves.formed, List.forall_mem_append.2 ⟨?_, ?_⟩⟩
    · exact List.forall_mem_map.2 free
    · refine List.forall_mem_map.2 fun cut member => ⟨fun feed => ?_, full cut member⟩
      rw [joined] at last
      exact last (List.mem_append_left _ (List.mem_flatten_of_mem member feed))
  case free =>
    rw [joined] at last
    exact fun feed => last (List.mem_append_right _ feed)
  case short => exact short

theorem rawAllConserves (chunks : List Bytes) : Conserves chunks.flatten (rawAll chunks) := by
  induction chunks using List.reverseRecOn with
  | nil => exact ⟨rfl, nofun, nofun, by decide⟩
  | append_singleton chunks bytes ih =>
    rw [rawAllNext, List.flatten_concat]
    exact ih.next bytes

theorem terminatedPlain (free : lineFeed ∉ bs) : terminated bs = ([], bs) := terminatedIff.2 ⟨rfl, nofun, free⟩

theorem rawAllOnce (stream : Bytes) :
    rawAll [stream] =
      ((terminated stream).1.map .ended ++ (cutLong (terminated stream).2).1.map .cut,
        ⟨(cutLong (terminated stream).2).2⟩) :=
  rfl

theorem unendedPlain (free : lineFeed ∉ a) (long : maxLength ≤ a.length)
    (short : ∀ line ∈ (terminated (a ++ b)).1, line.length < maxLength) : lineFeed ∉ b := by
  obtain ⟨whole, _, last⟩ := terminatedMeets b
  rw [terminatedFree free] at short
  rcases same : terminated b with ⟨_ | ⟨line, lines⟩, tail⟩
  all_goals rw [same] at short whole last
  · rw [whole]
    exact last
  · have less := short _ List.mem_cons_self
    rw [List.length_append] at less
    omega

theorem rawAllWhole (short : ∀ line ∈ (terminated chunks.flatten).1, line.length < maxLength) :
    rawAll chunks = rawAll [chunks.flatten] := by
  induction chunks using List.reverseRecOn with
  | nil =>
    have none : cutLong [] = ([], []) := cutLongShort (by decide)
    simp only [List.flatten_nil, rawAllOnce, terminated, none]
    rfl
  | append_singleton chunks bytes ih =>
    rw [List.flatten_concat] at short ⊢
    have joined := terminatedAppend chunks.flatten bytes
    obtain ⟨_, _, free⟩ := terminatedMeets chunks.flatten
    rw [joined] at short
    obtain ⟨before, behind⟩ := List.forall_mem_append.1 short
    rw [rawAllNext, ih before, rawAllOnce, rawAllOnce, joined]
    generalize terminated chunks.flatten = done at *
    rcases Nat.lt_or_ge done.2.length maxLength with room | long
    · simp only [rawNext, cutLongShort room, List.map_nil, List.append_nil, List.map_append, List.append_assoc]
    · have plain := unendedPlain free long behind
      obtain ⟨parts, _, _⟩ := cutLongMeets done.2
      have rest : lineFeed ∉ (cutLong done.2).2 := fun feed => free (parts ▸ List.mem_append_right _ feed)
      have whole := terminatedPlain (List.not_mem_append free plain)
      have left := terminatedPlain (List.not_mem_append rest plain)
      simp only [rawNext, whole, left, cutLongAppend done.2 bytes, List.map_nil, List.nil_append, List.append_nil,
        List.map_append, List.append_assoc]

theorem toTextReturn (line : Bytes) : toText (line ++ [carriageReturn]) = Text.lenient line := by
  rw [toText, stripReturn, if_pos List.getLast?_concat, List.dropLast_concat]

theorem toTextPlain (plain : line.getLast? ≠ some carriageReturn) : toText line = Text.lenient line := by
  rw [toText, stripReturn, if_neg plain]

theorem terminatedInfix (member : line ∈ (terminated bs).1) : line <:+: bs := by
  obtain ⟨whole, _, _⟩ := terminatedMeets bs
  have ended : line ++ [lineFeed] <:+: (terminated bs).1.flatMap (· ++ [lineFeed]) :=
    List.infix_of_mem_flatten (List.mem_map_of_mem member)
  conv => rhs; rw [whole]
  exact (List.prefix_append _ _).isInfix.trans (ended.trans (List.prefix_append _ _).isInfix)

theorem terminatedRest (bs : Bytes) : (terminated bs).2 <:+ bs := by
  obtain ⟨whole, _, _⟩ := terminatedMeets bs
  conv => rhs; rw [whole]
  exact List.suffix_append _ _

theorem rawAllPrefix (chunks more : List Bytes) : (rawAll chunks).1 <+: (rawAll (chunks ++ more)).1 := by
  induction more using List.reverseRecOn with
  | nil => simp only [List.append_nil, List.prefix_rfl]
  | append_singleton more bytes ih =>
    rw [← List.append_assoc, rawAllNext]
    exact ih.trans (List.prefix_append _ _)

/-- The lines so far stand for parts of the stream, which with the pending bytes behind them are all of it, and
a flush adds these as the last. Where no run of the stream is too long for a line, they are what stands
between its line feeds, however it came in. -/
theorem streamConserved (chunks : List Bytes) :
    pushAll chunks = ((rawAll chunks).1.map RawLine.text, (rawAll chunks).2) ∧
      Conserves chunks.flatten (rawAll chunks) ∧
      (∀ more, (rawAll chunks).1 <+: (rawAll (chunks ++ more)).1) ∧
      emitted chunks = (rawEmitted chunks).map toText ∧ (pushAll chunks).2.flush.2 = empty ∧
      ((∀ run, run <:+: chunks.flatten → lineFeed ∉ run → run.length < maxLength) →
        ∃ lines last, chunks.flatten.splitOn lineFeed = lines ++ [last] ∧ pushAll chunks = (lines.map toText, ⟨last⟩)) ∧
      ∀ line, toText (line ++ [carriageReturn]) = Text.lenient line ∧
        (line.getLast? ≠ some carriageReturn → toText line = Text.lenient line) := by
  refine ⟨pushAllRaw chunks, rawAllConserves chunks, rawAllPrefix chunks, emittedRaw chunks, rfl, fun short => ?_,
    fun line => ⟨toTextReturn line, toTextPlain⟩⟩
  obtain ⟨_, free, last⟩ := terminatedMeets chunks.flatten
  have lines := fun line member => short line (terminatedInfix member) (free line member)
  have rest := short _ (terminatedRest chunks.flatten).isInfix last
  refine ⟨_, _, splitOnTerminated chunks.flatten, ?_⟩
  rw [pushAllRaw, rawAllWhole lines, rawAllOnce, cutLongShort rest]
  simp [RawLine.text, RawLine.bytes, Function.comp_def]

theorem readyInPieces :
    let chunks : List Bytes := [Bytes.ofText "[REA", Bytes.ofText "DY]\r\nBat: 7", Bytes.ofText "4", Bytes.ofText "2\n\n"]
    (∀ run, run <:+: chunks.flatten → lineFeed ∉ run → run.length < maxLength) ∧
      pushAll chunks = (["[READY]", "Bat: 742", ""], empty) := by
  intro chunks
  have length : chunks.flatten.length < maxLength := by decide +kernel
  have short : ∀ run, run <:+: chunks.flatten → lineFeed ∉ run → run.length < maxLength :=
    fun run inside _ => Nat.lt_of_le_of_lt inside.length_le length
  obtain ⟨_, _, _, _, _, pieces, _⟩ := streamConserved chunks
  obtain ⟨lines, last, split, pushed⟩ := pieces short
  have known : chunks.flatten.splitOn lineFeed =
      [Bytes.ofText "[READY]\r", Bytes.ofText "Bat: 742", []] ++ [[]] := by decide +kernel
  obtain ⟨rfl, same⟩ := List.append_inj' (split.symm.trans known) rfl
  cases same
  refine ⟨short, pushed.trans ?_⟩
  decide +kernel

end

end LineBuffer
end RobotLink
