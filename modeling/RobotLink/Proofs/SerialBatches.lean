import RobotLink.Proofs.SerialLines

/-! Lines against the batches of the serial reads. A line feed is looked for in all that is buffered before
anything is cut, so a line that reaches the greatest length comes out whole or cut by what is read with it.
Only the lines that a line feed ends can tell: where each of these is shorter, and however long what is left
unended, the batches do not show. -/
namespace RobotLink
namespace LineBuffer
variable {a b stream line tail : Bytes} {lines after : List Bytes}

theorem rawAllEnded (free : ∀ line ∈ lines, lineFeed ∉ line) (last : lineFeed ∉ tail) :
    rawAll [lines.flatMap (· ++ [lineFeed]) ++ tail] =
      (lines.map .ended ++ (cutLong tail).1.map .cut, ⟨(cutLong tail).2⟩) := by
  rw [rawAllOnce, terminatedIff.2 ⟨rfl, free, last⟩]

theorem rawAllBehind (early : ∀ line ∈ lines, lineFeed ∉ line) (own : lineFeed ∉ line)
    (late : ∀ line ∈ after, lineFeed ∉ line) (last : lineFeed ∉ tail) :
    rawAll [lines.flatMap (· ++ [lineFeed]) ++ line, lineFeed :: (after.flatMap (· ++ [lineFeed]) ++ tail)] =
      (lines.map .ended ++ (cutLong line).1.map .cut ++
        (((cutLong line).2 :: after).map .ended ++ (cutLong tail).1.map .cut), ⟨(cutLong tail).2⟩) := by
  obtain ⟨parts, _, _⟩ := cutLongMeets line
  have rest : lineFeed ∉ (cutLong line).2 := fun feed => own (parts ▸ List.mem_append_right _ feed)
  have second : terminated ((cutLong line).2 ++ lineFeed :: (after.flatMap (· ++ [lineFeed]) ++ tail)) =
      ((cutLong line).2 :: after, tail) :=
    terminatedIff.2 ⟨by simp, List.forall_mem_cons.2 ⟨rest, late⟩, last⟩
  have first := rawAllNext [lines.flatMap (· ++ [lineFeed]) ++ line]
    (lineFeed :: (after.flatMap (· ++ [lineFeed]) ++ tail))
  rw [rawAllEnded early own] at first
  simp only [rawNext, second] at first
  exact first

theorem batchesDiffer (member : line ∈ (terminated stream).1) (long : maxLength ≤ line.length) :
    ∃ a b : List Bytes, a.flatten = stream ∧ b.flatten = stream ∧ emitted a ≠ emitted b := by
  obtain ⟨lines, tail, found⟩ : ∃ lines tail, terminated stream = (lines, tail) := ⟨_, _, rfl⟩
  obtain ⟨whole, free, last⟩ := terminatedIff.1 found
  rw [found] at member
  obtain ⟨before, after, rfl⟩ := List.append_of_mem member
  obtain ⟨early, others⟩ := List.forall_mem_append.1 free
  obtain ⟨own, late⟩ := List.forall_mem_cons.1 others
  obtain ⟨parts, _, short⟩ := cutLongMeets line
  have cuts : 0 < (cutLong line).1.length := by
    refine List.length_pos_iff.2 fun none => ?_
    have length := congrArg List.length parts
    rw [none, List.flatten_nil, List.nil_append] at length
    omega
  refine ⟨[_], [before.flatMap (· ++ [lineFeed]) ++ line, lineFeed :: (after.flatMap (· ++ [lineFeed]) ++ tail)],
    List.flatten_singleton.trans whole.symm, by simp [whole], fun same => ?_⟩
  -- Ahead of its line feed the line is cut at least once, so that there is one more than in the whole.
  have count := congrArg List.length same
  rw [emittedRaw, emittedRaw, rawEmitted, rawEmitted, rawAllEnded free last, rawAllBehind early own late last] at count
  simp only [List.length_map, List.length_append, List.length_cons] at count
  omega

theorem terminatedSuffix (suffix : a <:+ b) (free : lineFeed ∉ b) (bytes : Bytes) :
    (∀ line ∈ (terminated (a ++ bytes)).1, ∃ whole ∈ (terminated (b ++ bytes)).1, line <:+ whole) ∧
      (terminated (a ++ bytes)).2 <:+ (terminated (b ++ bytes)).2 := by
  obtain ⟨front, rfl⟩ := suffix
  have own : lineFeed ∉ a := fun feed => free (List.mem_append_right _ feed)
  rw [terminatedFree own, terminatedFree free]
  rcases terminated bytes with ⟨_ | ⟨first, others⟩, tail⟩
  · exact ⟨nofun, front, (List.append_assoc ..).symm⟩
  · refine ⟨List.forall_mem_cons.2 ⟨⟨_, List.mem_cons_self, front, (List.append_assoc ..).symm⟩, fun line member => ?_⟩,
      List.suffix_rfl⟩
    exact ⟨line, List.mem_cons_of_mem _ member, List.suffix_rfl⟩

theorem endedWithin (chunks : List Bytes) :
    (∀ bs, .ended bs ∈ (rawAll chunks).1 → ∃ line ∈ (terminated chunks.flatten).1, bs <:+ line) ∧
      (rawAll chunks).2.pending <:+ (terminated chunks.flatten).2 := by
  induction chunks using List.reverseRecOn with
  | nil => exact ⟨nofun, List.nil_suffix⟩
  | append_singleton chunks bytes ih =>
    obtain ⟨lines, pending⟩ := ih
    obtain ⟨_, _, free⟩ := terminatedMeets chunks.flatten
    obtain ⟨ended, rest⟩ := terminatedSuffix pending free bytes
    obtain ⟨parts, _, _⟩ := cutLongMeets (terminated ((rawAll chunks).2.pending ++ bytes)).2
    rw [List.flatten_concat, terminatedAppend, rawAllNext]
    refine ⟨fun bs member => ?_, List.IsSuffix.trans ⟨_, parts.symm⟩ rest⟩
    rcases List.mem_append.1 member with old | new
    · obtain ⟨line, place, within⟩ := lines bs old
      exact ⟨line, List.mem_append_left _ place, within⟩
    · rcases List.mem_append.1 new with now | cut
      · obtain ⟨_, place, same⟩ := List.mem_map.1 now
        cases same
        obtain ⟨line, there, within⟩ := ended bs place
        exact ⟨line, List.mem_append_right _ there, within⟩
      · obtain ⟨_, _, same⟩ := List.mem_map.1 cut
        cases same

theorem emittedWithin {chunks : List Bytes} (member : line ∈ rawEmitted chunks) :
    line.length ≤ maxLength ∨ ∃ whole ∈ (terminated chunks.flatten).1, line <:+ whole := by
  obtain ⟨_, formed, _, short⟩ := rawAllConserves chunks
  rcases List.mem_append.1 member with lines | flushed
  · obtain ⟨raw, place, rfl⟩ := List.mem_map.1 lines
    cases raw with
    | ended bs => exact .inr ((endedWithin chunks).1 bs place)
    | cut bs => exact .inl (Nat.le_of_eq (formed _ place).2)
  · split at flushed
    · cases flushed
    · rw [List.mem_singleton.1 flushed]
      exact .inl (Nat.le_of_lt short)

/-- All ways to cut a stream into pushes give the same lines if and only if each line that a line feed ends is
shorter than the greatest length, and no line is of more bytes than that if and only if none of these is. -/
theorem batchesAgree (stream : Bytes) :
    (∀ chunks, emitted chunks = (rawEmitted chunks).map toText) ∧
      ((∀ a b : List Bytes, a.flatten = stream → b.flatten = stream → emitted a = emitted b) ↔
        ∀ line ∈ (stream.splitOn lineFeed).dropLast, line.length < maxLength) ∧
      ((∀ chunks : List Bytes, chunks.flatten = stream → ∀ line ∈ rawEmitted chunks, line.length ≤ maxLength) ↔
        ∀ line ∈ (stream.splitOn lineFeed).dropLast, line.length ≤ maxLength) := by
  rw [splitOnTerminated, List.dropLast_concat]
  refine ⟨emittedRaw, ⟨fun same line member => ?_, ?_⟩, fun short line member => ?_, ?_⟩
  · refine Nat.lt_of_not_le fun long => ?_
    obtain ⟨a, b, first, second, differ⟩ := batchesDiffer member long
    exact differ (same a b first second)
  · rintro short a b rfl second
    have whole := rawAllWhole (second ▸ short)
    rw [second, ← rawAllWhole short] at whole
    rw [emittedRaw, emittedRaw, rawEmitted, rawEmitted, whole]
  · have whole : line ∈ rawEmitted [stream] := by
      rw [rawEmitted, rawAllOnce]
      exact List.mem_append_left _ (List.mem_map.2 ⟨.ended line, List.mem_append_left _ (List.mem_map_of_mem member), rfl⟩)
    exact short [stream] (by simp) line whole
  · rintro short chunks rfl line member
    rcases emittedWithin member with within | ⟨whole, place, suffix⟩
    · exact within
    · exact Nat.le_trans suffix.length_le (short whole place)

theorem overlongDependsOnReads :
    let line : Bytes := List.replicate (maxLength + 1) 0x78
    (¬∀ a b : List Bytes, a.flatten = b.flatten → emitted a = emitted b) ∧
      (¬∀ chunks, ∀ line ∈ rawEmitted chunks, line.length ≤ maxLength) ∧
      rawEmitted [line ++ [lineFeed]] = [line] ∧
      rawEmitted [line, [lineFeed]] = [line.take maxLength, line.drop maxLength] := by
  intro line
  have plain : lineFeed ∉ line := fun feed => absurd (List.eq_of_mem_replicate feed) (by decide)
  have short : line.length = maxLength + 1 := List.length_replicate
  clear_value line
  have full : (line.take maxLength).length = maxLength := List.length_take_of_le (short ▸ Nat.le_succ _)
  have rest : (line.drop maxLength).length < maxLength := by
    rw [List.length_drop, short, Nat.add_sub_cancel_left]
    decide
  have cuts : cutLong line = ([line.take maxLength], line.drop maxLength) := by
    conv => lhs; rw [← List.take_append_drop maxLength line]
    rw [cutLongFull full, cutLongShort rest]
  have nothing : cutLong [] = ([], []) := cutLongShort (by decide)
  have once := @rawAllEnded [] [line] (List.forall_mem_singleton.2 plain) nofun
  have twice := @rawAllBehind line [] [] [] nofun plain nofun nofun
  rw [List.flatMap_singleton, List.append_nil, nothing] at once
  rw [List.flatMap_nil, List.nil_append, List.nil_append, cuts, nothing] at twice
  have whole : rawEmitted [line ++ [lineFeed]] = [line] := by
    rw [rawEmitted, once]
    rfl
  have pieces : rawEmitted [line, [lineFeed]] = [line.take maxLength, line.drop maxLength] := by
    rw [rawEmitted, twice]
    rfl
  refine ⟨fun same => ?_, fun bounded => ?_, whole, pieces⟩
  · have lines := same [line ++ [lineFeed]] [line, [lineFeed]] (by simp)
    rw [emittedRaw, emittedRaw, whole, pieces] at lines
    cases congrArg List.length lines
  · have long := bounded [line ++ [lineFeed]] line (whole ▸ List.mem_singleton_self line)
    omega

end LineBuffer
end RobotLink
