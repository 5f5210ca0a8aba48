import RobotLink.SaveState.Layout

/-! The layout of a snapshot read back. Each part is of a width of its own or behind its count, so a
read succeeds exactly in front of the bytes that its value is written as, and takes no more. -/
namespace RobotLink.Layout
variable {α β : Type} {payload rest : Bytes}

def Reads (part : Part α) (put : α → Bytes) : Prop :=
  ∀ {payload : Bytes} {value : α} {rest : Bytes}, part.run payload = .ok (value, rest) ↔ payload = put value ++ rest

theorem runPure {value found : α} :
    (pure value : Part α).run payload = .ok (found, rest) ↔ value = found ∧ payload = rest := by
  change Except.ok (value, payload) = _ ↔ _
  rw [Except.ok.injEq, Prod.mk.injEq]

theorem runBind {part : Part α} {next : α → Part β} {value : β} :
    (part >>= next).run payload = .ok (value, rest) ↔
      ∃ first between, part.run payload = .ok (first, between) ∧ (next first).run between = .ok (value, rest) := by
  change (part.run payload >>= fun (first, between) => (next first).run between) = _ ↔ _
  cases part.run payload with
  | error e => exact ⟨nofun, nofun⟩
  | ok ended =>
    constructor
    · exact fun h => ⟨ended.1, ended.2, rfl, h⟩
    · rintro ⟨_, _, same, h⟩
      cases same
      exact h

theorem runThrow {e : LayoutError} {value : α} : (throw e : Part α).run payload ≠ .ok (value, rest) := nofun

theorem Reads.next {part : Part α} {put : α → Bytes} (reads : Reads part put) {next : α → Part β} {value : β} :
    (part >>= next).run payload = .ok (value, rest) ↔
      ∃ first between, payload = put first ++ between ∧ (next first).run between = .ok (value, rest) := by
  rw [runBind]
  exact exists_congr fun first => exists_congr fun between => and_congr_left' reads

theorem numberTaken {width : Nat} {head tail : Bytes} (found : Bytes.split? width payload = some (head, tail)) :
    (number width).run payload = .ok (Bytes.toNat head, tail) := by
  simp only [number, StateT.run, bind, StateT.bind, get, getThe, MonadStateOf.get, StateT.get, pure, Except.pure,
    Except.bind, found]
  rfl

theorem numberShort {width : Nat} (short : Bytes.split? width payload = none) :
    (number width).run payload = .error .endOfFile := by
  simp only [number, StateT.run, bind, StateT.bind, get, getThe, MonadStateOf.get, StateT.get, pure, Except.pure,
    Except.bind, short]
  rfl

theorem numberRun {width n : Nat} :
    (number width).run payload = .ok (n, rest) ↔ payload = Bytes.ofNat width n ++ rest ∧ n < Bytes.span width := by
  cases found : Bytes.split? width payload with
  | none =>
    rw [numberShort found]
    refine ⟨nofun, ?_⟩
    rintro ⟨rfl, _⟩
    rw [Bytes.splitSome.2 ⟨rfl, Bytes.lengthOfNat width n⟩] at found
    cases found
  | some parts =>
    obtain ⟨head, tail⟩ := parts
    rw [numberTaken found]
    obtain ⟨rfl, length⟩ := Bytes.splitSome.1 found
    constructor
    · intro h
      cases h
      rw [← length, Bytes.ofNatToNat]
      exact ⟨rfl, Bytes.toNatLt head⟩
    · rintro ⟨same, small⟩
      obtain ⟨rfl, rfl⟩ := List.append_inj same (by rw [length, Bytes.lengthOfNat])
      rw [Bytes.toNatOfNat, Nat.mod_eq_of_lt small]

theorem readsNumber {width : Nat} {word : Nat → α} {number : α → Nat} (inverse : ∀ a, word (number a) = a)
    (small : ∀ a, number a < Bytes.span width) (exact : ∀ n < Bytes.span width, number (word n) = n) :
    Reads (do return word (← Layout.number width)) fun a => Bytes.ofNat width (number a) := by
  intro payload value rest
  simp only [runBind, numberRun, runPure]
  constructor
  · rintro ⟨n, _, ⟨rfl, within⟩, rfl, rfl⟩
    rw [exact n within]
  · rintro rfl
    exact ⟨number value, rest, ⟨rfl, small value⟩, inverse value, rfl⟩

theorem readsWord : Reads word putWord :=
  readsNumber (fun _ => UInt64.ofNat_toNat) (show ∀ n : UInt64, n.toNat < Bytes.span 8 from UInt64.toNat_lt)
    (show ∀ n < Bytes.span 8, n.toUInt64.toNat = n from fun _ => UInt64.toNat_ofNat_of_lt)

theorem readsHalf : Reads half putHalf :=
  readsNumber (fun _ => UInt32.ofNat_toNat) (show ∀ n : UInt32, n.toNat < Bytes.span 4 from UInt32.toNat_lt)
    (show ∀ n < Bytes.span 4, n.toUInt32.toNat = n from fun _ => UInt32.toNat_ofNat_of_lt)

theorem readsTicks : Reads ticks putTicks := by
  intro payload value rest
  simp only [ticks, readsWord.next, runPure, putTicks, List.append_assoc]
  constructor
  · rintro ⟨cycles, _, rfl, remainder, _, rfl, rfl, rfl⟩
    rfl
  · rintro rfl
    exact ⟨_, _, rfl, _, _, rfl, rfl, rfl⟩

theorem readsFlag : Reads flag putFlag := by
  intro payload value rest
  simp only [flag, runBind, numberRun]
  constructor
  · rintro ⟨n, _, ⟨rfl, small⟩, h⟩
    split at h
    · obtain ⟨rfl, rfl⟩ := runPure.1 h
      rfl
    · obtain ⟨rfl, rfl⟩ := runPure.1 h
      rfl
    · exact absurd h runThrow
  · rintro rfl
    cases value with
    | false => exact ⟨0, rest, ⟨rfl, by decide⟩, rfl⟩
    | true => exact ⟨1, rest, ⟨rfl, by decide⟩, rfl⟩

theorem readsUsage : Reads usage fun u => putHalf (usageIndex u) := by
  intro payload value rest
  simp only [usage, readsHalf.next]
  constructor
  · rintro ⟨index, _, rfl, h⟩
    split at h
    iterate 4
      · obtain ⟨rfl, rfl⟩ := runPure.1 h
        rfl
    · exact absurd h runThrow
  · rintro rfl
    refine ⟨_, rest, rfl, ?_⟩
    cases value <;> rfl

theorem readsTimer : Reads timer putTimer := by
  intro payload value rest
  simp only [timer, readsHalf.next, readsFlag.next, readsTicks.next, runPure, putTimer, List.append_assoc]
  constructor
  · rintro ⟨id, _, rfl, enabled, _, rfl, compare, _, rfl, prescaler, _, rfl, nextMatch, _, rfl, rfl, rfl⟩
    rfl
  · rintro rfl
    exact ⟨_, _, rfl, _, _, rfl, _, _, rfl, _, _, rfl, _, _, rfl, rfl, rfl⟩

theorem timersRun {count : Nat} {found : List TimerSnapshot} :
    (timers count).run payload = .ok (found, rest) ↔ found.length = count ∧ payload = found.flatMap putTimer ++ rest := by
  induction count generalizing payload rest found with
  | zero =>
    rw [timers, runPure, List.length_eq_zero_iff]
    constructor
    · rintro ⟨rfl, rfl⟩
      exact ⟨rfl, rfl⟩
    · rintro ⟨rfl, rfl⟩
      exact ⟨rfl, rfl⟩
  | succ count ih =>
    simp only [timers, readsTimer.next, runBind, ih, runPure]
    constructor
    · rintro ⟨first, _, rfl, others, _, ⟨rfl, rfl⟩, rfl, rfl⟩
      rw [List.flatMap_cons, List.append_assoc]
      exact ⟨rfl, rfl⟩
    · rintro ⟨length, rfl⟩
      obtain ⟨first, others, rfl⟩ := List.exists_cons_of_length_eq_add_one length
      rw [List.flatMap_cons, List.append_assoc]
      exact ⟨first, _, rfl, others, _, ⟨Nat.succ.inj length, rfl⟩, rfl, rfl⟩

theorem snapshotRun {s : ClockSnapshot} :
    snapshot.run payload = .ok (s, rest) ↔ s.timers.length < UInt64.size ∧ payload = put s ++ rest := by
  have words : Bytes.span 8 = UInt64.size := rfl
  simp only [snapshot, readsTicks.next, readsWord.next, readsUsage.next, runBind, numberRun, timersRun, runPure, put,
    List.append_assoc, words]
  constructor
  · rintro ⟨current, _, rfl, owed, _, rfl, speed, _, rfl, usage, _, rfl, count, _, ⟨rfl, within⟩, saved, _,
      ⟨rfl, rfl⟩, rfl, rfl⟩
    exact ⟨within, rfl⟩
  · rintro ⟨within, rfl⟩
    exact ⟨_, _, rfl, _, _, rfl, _, _, rfl, _, _, rfl, _, _, ⟨rfl, within⟩, _, _, ⟨rfl, rfl⟩, rfl, rfl⟩

theorem readIff {s : ClockSnapshot} :
    read payload = .ok s ↔ s.timers.length < UInt64.size ∧ put s <+: payload := by
  have opened : read payload = (snapshot.run payload).map Prod.fst := by
    unfold read
    cases snapshot.run payload <;> rfl
  rw [opened]
  constructor
  · intro h
    cases ran : snapshot.run payload with
    | error e =>
      rw [ran] at h
      cases h
    | ok ended =>
      rw [ran] at h
      cases h
      obtain ⟨within, same⟩ := snapshotRun.1 ran
      exact ⟨within, ended.2, same.symm⟩
  · rintro ⟨within, rest, rfl⟩
    rw [snapshotRun.2 ⟨within, rfl⟩]
    rfl

theorem lengthPutTimer (t : TimerSnapshot) : (putTimer t).length = 29 := by
  simp only [putTimer, putHalf, putFlag, putTicks, putWord, List.length_append, Bytes.lengthOfNat, List.length_singleton]

theorem lengthPut (s : ClockSnapshot) : (put s).length = 44 + 29 * s.timers.length := by
  have timers : (s.timers.flatMap putTimer).length = 29 * s.timers.length := by
    induction s.timers with
    | nil => rfl
    | cons first rest ih =>
      rw [List.flatMap_cons, List.length_append, lengthPutTimer, ih, List.length_cons]
      omega
  simp only [put, putTicks, putWord, putHalf, List.length_append, Bytes.lengthOfNat, timers]

theorem countDeclared {s : ClockSnapshot} {front : Bytes} {count : Nat} (fixed : front.length = 36)
    (word : count < UInt64.size) (countable : s.timers.length < UInt64.size)
    (written : put s <+: front ++ Bytes.ofNat 8 count ++ rest) :
    s.timers.length = count ∧ 29 * s.timers.length ≤ rest.length := by
  have span : Bytes.span 8 = UInt64.size := rfl
  constructor
  · obtain ⟨behind, same⟩ := written
    rw [put, List.append_assoc, List.append_assoc, List.append_assoc (front)] at same
    have fields := (List.append_inj same (by
      simp only [putTicks, putWord, putHalf, List.length_append, Bytes.lengthOfNat, fixed])).2
    have counts := (List.append_inj fields (by rw [Bytes.lengthOfNat, Bytes.lengthOfNat])).1
    have numbers := congrArg Bytes.toNat counts
    rwa [Bytes.toNatOfNat, Bytes.toNatOfNat, span, Nat.mod_eq_of_lt countable, Nat.mod_eq_of_lt word] at numbers
  · have length := written.length_le
    rw [lengthPut, List.length_append, List.length_append, fixed, Bytes.lengthOfNat] at length
    exact Nat.le_of_add_le_add_left length

end RobotLink.Layout
