import RobotLink.Ticks

/-! Exact tick arithmetic. On normalized values the number of ticks is injective and carries
the order; a sum exists exactly when it is in range, and a difference never needs a second
borrow. -/
namespace RobotLink

theorem addWordMeets {a b : UInt64} (fits : a.toNat + b.toNat < UInt64.size) : addWord a b = .ok (a + b) :=
  if_pos fits

theorem subWordMeets {a b : UInt64} (ordered : b ≤ a) : subWord a b = .ok (a - b) :=
  if_pos ordered

theorem clampWordExact {n : Nat} (fits : n < UInt64.size) : (clampWord n).toNat = n := by
  unfold clampWord
  rw [if_pos fits]
  exact Nat.mod_eq_of_lt fits

theorem clampWordLeast (n : Nat) : (clampWord n).toNat = min n (UInt64.size - 1) := by
  by_cases fits : n < UInt64.size
  · rw [clampWordExact fits]
    omega
  · have greatest : (clampWord n).toNat = UInt64.size - 1 := by
      unfold clampWord
      rw [if_neg fits]
      rfl
    omega

theorem toNatSubWord {a b c : UInt64} (h : subWord a b = .ok c) : c.toNat + b.toNat = a.toNat := by
  unfold subWord at h
  split at h
  next ordered =>
    cases h
    rw [UInt64.toNat_sub_of_le _ _ ordered]
    exact Nat.sub_add_cancel (UInt64.le_iff_toNat_le.1 ordered)
  next => cases h

namespace Ticks

def range : Nat := UInt64.size * cycleLength.toNat

theorem getParts (t : Ticks) : t.get = t.cycles.toNat * 1000000 + t.remainder.toNat := rfl

theorem rangeDigits : range = 18446744073709551616000000 := rfl

theorem normalizedBound {t : Ticks} (h : t.Normalized) : t.remainder.toNat < 1000000 :=
  UInt64.lt_iff_toNat_lt.1 h

theorem normalizedOfBound {t : Ticks} (h : t.remainder.toNat < 1000000) : t.Normalized :=
  UInt64.lt_iff_toNat_lt.2 h

theorem getInjective {a b : Ticks} (first : a.Normalized) (second : b.Normalized) (same : a.get = b.get) :
    a = b := by
  have r := normalizedBound first
  have s := normalizedBound second
  rw [getParts, getParts] at same
  have cycles : a.cycles = b.cycles := UInt64.toNat_inj.1 (by omega)
  have remainder : a.remainder = b.remainder := UInt64.toNat_inj.1 (by omega)
  cases a
  cases b
  cases cycles
  cases remainder
  rfl

theorem ltGet {a b : Ticks} (first : a.Normalized) (second : b.Normalized) : a < b ↔ a.get < b.get := by
  have r := normalizedBound first
  have s := normalizedBound second
  change a.cycles < b.cycles ∨ a.cycles = b.cycles ∧ a.remainder < b.remainder ↔ _
  rw [UInt64.lt_iff_toNat_lt, UInt64.lt_iff_toNat_lt, ← UInt64.toNat_inj, getParts, getParts]
  omega

theorem leGet {a b : Ticks} (first : a.Normalized) (second : b.Normalized) : a ≤ b ↔ a.get ≤ b.get := by
  have r := normalizedBound first
  have s := normalizedBound second
  change a.cycles < b.cycles ∨ a.cycles = b.cycles ∧ a.remainder ≤ b.remainder ↔ _
  rw [UInt64.lt_iff_toNat_lt, UInt64.le_iff_toNat_le, ← UInt64.toNat_inj, getParts, getParts]
  omega

theorem ofWordNormalized (n : UInt64) : (ofWord n).Normalized := by
  apply normalizedOfBound
  simp only [ofWord, UInt64.toNat_mod]
  exact Nat.mod_lt _ (by decide)

theorem ofPartsNormalized {cycles remainder : UInt64} {t : Ticks} (h : ofParts cycles remainder = .ok t) :
    t.Normalized := by
  unfold ofParts at h
  split at h
  next small => cases h; exact small
  next =>
    cases sum : addWord cycles (remainder / cycleLength) with
    | error f => simp [sum, bind, Except.bind] at h
    | ok c =>
      simp only [sum, bind, Except.bind, pure, Except.pure, Except.ok.injEq] at h
      subst h
      apply normalizedOfBound
      rw [UInt64.toNat_mod]
      exact Nat.mod_lt _ (by decide)

theorem addNormalized {a b c : Ticks} (h : a.add b = .ok c) : c.Normalized := by
  unfold add at h
  cases cycles : addWord a.cycles b.cycles with
  | error f => simp [cycles, bind, Except.bind] at h
  | ok m =>
    cases remainder : addWord a.remainder b.remainder with
    | error f => simp [cycles, remainder, bind, Except.bind] at h
    | ok r =>
      simp only [cycles, remainder, bind, Except.bind] at h
      exact ofPartsNormalized h

theorem ofPartsMeets {cycles remainder : UInt64} (fits : cycles.toNat * 1000000 + remainder.toNat < range) :
    ∃ t, ofParts cycles remainder = .ok t := by
  unfold ofParts
  split
  next small => exact ⟨_, rfl⟩
  next =>
    have carry : (remainder / cycleLength).toNat = remainder.toNat / 1000000 := UInt64.toNat_div _ _
    have sum : cycles.toNat + (remainder / cycleLength).toNat < UInt64.size := by
      rw [carry]
      rw [rangeDigits] at fits
      simp only [UInt64.size]
      omega
    rw [addWordMeets sum]
    exact ⟨_, rfl⟩

theorem addMeets {a b : Ticks} (first : a.Normalized) (second : b.Normalized) (fits : a.get + b.get < range) :
    ∃ c, a.add b = .ok c ∧ c.Normalized ∧ c.get = a.get + b.get := by
  have r := normalizedBound first
  have s := normalizedBound second
  rw [getParts, getParts] at fits
  have cycles : a.cycles.toNat + b.cycles.toNat < UInt64.size := by
    rw [rangeDigits] at fits
    simp only [UInt64.size]
    omega
  have remainder : a.remainder.toNat + b.remainder.toNat < UInt64.size := by
    simp only [UInt64.size]
    omega
  have whole : (a.cycles + b.cycles).toNat * 1000000 + (a.remainder + b.remainder).toNat < range := by
    rw [toNatAddWord (addWordMeets cycles), toNatAddWord (addWordMeets remainder), Nat.add_mul]
    omega
  obtain ⟨c, parts⟩ := ofPartsMeets whole
  have sum : a.add b = .ok c := by
    rw [add, addWordMeets cycles, addWordMeets remainder]
    exact parts
  exact ⟨c, sum, addNormalized sum, getAdd sum⟩

theorem addCountMeets {a : Ticks} {n : UInt64} (first : a.Normalized) (fits : a.get + n.toNat < range) :
    ∃ c, a.addCount n = .ok c ∧ c.Normalized ∧ c.get = a.get + n.toNat := by
  have sum := addMeets first (ofWordNormalized n) (by rw [getOfWord]; exact fits)
  rw [getOfWord] at sum
  exact sum

theorem checkedSubOk {a b : Ticks} {result : Option Ticks} (h : a.checkedSub b = .ok result) :
    result = none ∧ a < b ∨ ∃ d, result = some d ∧ (a.Normalized → d.Normalized) ∧ d.get + b.get = a.get := by
  unfold checkedSub at h
  split at h
  next earlier => cases h; exact .inl ⟨rfl, earlier⟩
  right
  cases cycles : subWord a.cycles b.cycles with
  | error f => simp [cycles, bind, Except.bind] at h
  | ok m =>
    have whole := toNatSubWord cycles
    split at h
    next plain =>
      simp only [cycles, bind, Except.bind, pure, Except.pure, Except.ok.injEq] at h
      have rest := toNatSubWord (subWordMeets plain)
      refine ⟨_, h.symm, fun first => normalizedOfBound ?_, ?_⟩
      · have bound := normalizedBound first
        simp only
        omega
      · simp only [getParts]
        omega
    next borrows =>
      have greater : a.remainder.toNat < b.remainder.toNat := by
        rw [UInt64.le_iff_toNat_le] at borrows
        omega
      cases less : subWord m 1 with
      | error f => simp [cycles, less, bind, Except.bind] at h
      | ok n =>
        cases rest : subWord cycleLength (b.remainder - a.remainder) with
        | error f => simp [cycles, less, rest, bind, Except.bind] at h
        | ok r =>
          simp only [cycles, less, rest, bind, Except.bind, pure, Except.pure, Except.ok.injEq] at h
          have one : n.toNat + 1 = m.toNat := toNatSubWord less
          have borrow := toNatSubWord (subWordMeets (UInt64.le_iff_toNat_le.2 (Nat.le_of_lt greater)))
          have cycle : r.toNat + (b.remainder - a.remainder).toNat = 1000000 := toNatSubWord rest
          refine ⟨_, h.symm, fun _ => normalizedOfBound ?_, ?_⟩
          · simp only
            omega
          · simp only [getParts]
            omega

theorem notLtOfLe {a b : Ticks} (le : a ≤ b) : ¬ b < a := by
  change a.cycles < b.cycles ∨ a.cycles = b.cycles ∧ a.remainder ≤ b.remainder at le
  change ¬ (b.cycles < a.cycles ∨ b.cycles = a.cycles ∧ b.remainder < a.remainder)
  simp only [UInt64.lt_iff_toNat_lt, UInt64.le_iff_toNat_le, ← UInt64.toNat_inj] at le ⊢
  omega

theorem checkedSubAhead {a b : Ticks} (exact : b.Normalized) (ahead : b ≤ a) :
    ∃ d, a.checkedSub b = .ok (some d) ∧ (a.Normalized → d.Normalized) ∧ d.get + b.get = a.get := by
  have later := notLtOfLe ahead
  have bound := normalizedBound exact
  change b.cycles < a.cycles ∨ b.cycles = a.cycles ∧ b.remainder ≤ a.remainder at ahead
  rw [UInt64.lt_iff_toNat_lt, UInt64.le_iff_toNat_le, ← UInt64.toNat_inj] at ahead
  have cycles : b.cycles ≤ a.cycles := UInt64.le_iff_toNat_le.2 (by omega)
  have returns : ∃ result, a.checkedSub b = .ok result := by
    unfold checkedSub
    rw [if_neg later, subWordMeets cycles]
    by_cases plain : b.remainder ≤ a.remainder
    · rw [if_pos plain]
      exact ⟨_, rfl⟩
    · have greater : a.remainder.toNat < b.remainder.toNat := by
        rw [UInt64.le_iff_toNat_le] at plain
        omega
      have oneLess : (1 : UInt64) ≤ a.cycles - b.cycles := by
        rw [UInt64.le_iff_toNat_le, UInt64.toNat_sub_of_le _ _ cycles]
        change 1 ≤ _
        omega
      have inCycle : b.remainder - a.remainder ≤ cycleLength := by
        rw [UInt64.le_iff_toNat_le, UInt64.toNat_sub_of_le _ _ (UInt64.le_iff_toNat_le.2 (Nat.le_of_lt greater))]
        change _ ≤ 1000000
        omega
      rw [if_neg plain]
      simp only [bind, Except.bind, subWordMeets oneLess, subWordMeets inCycle]
      exact ⟨_, rfl⟩
  obtain ⟨result, difference⟩ := returns
  obtain ⟨_, earlier⟩ | ⟨d, rfl, exact⟩ := checkedSubOk difference
  · exact absurd earlier later
  · exact ⟨d, difference, exact⟩

theorem checkedSubMeets {a b : Ticks} (first : a.Normalized) (second : b.Normalized)
    (ordered : b.get ≤ a.get) :
    ∃ d, a.checkedSub b = .ok (some d) ∧ d.Normalized ∧ d.get + b.get = a.get := by
  obtain ⟨d, difference, exact, total⟩ := checkedSubAhead second ((leGet second first).2 ordered)
  exact ⟨d, difference, exact first, total⟩

theorem saturatingSubOk {a b d : Ticks} (ordered : ¬ a < b) (h : a.saturatingSub b = .ok d) :
    d.get + b.get = a.get := by
  unfold saturatingSub at h
  cases difference : a.checkedSub b with
  | error f => simp [difference, bind, Except.bind] at h
  | ok found =>
    simp only [difference, bind, Except.bind, pure, Except.pure, Except.ok.injEq] at h
    obtain ⟨_, earlier⟩ | ⟨e, rfl, _, exact⟩ := checkedSubOk difference
    · exact absurd earlier ordered
    · subst h
      exact exact

theorem leOfGet {a b : Ticks} (exact : b.Normalized) (le : a.get ≤ b.get) : a ≤ b := by
  have r := normalizedBound exact
  rw [getParts, getParts] at le
  change a.cycles < b.cycles ∨ a.cycles = b.cycles ∧ a.remainder ≤ b.remainder
  rw [UInt64.lt_iff_toNat_lt, UInt64.le_iff_toNat_le, ← UInt64.toNat_inj]
  omega

theorem saturatingSubAhead {a b : Ticks} (exact : b.Normalized) (ahead : b ≤ a) :
    ∃ d, a.saturatingSub b = .ok d ∧ (a.Normalized → d.Normalized) ∧ d.get + b.get = a.get := by
  obtain ⟨d, difference, exact⟩ := checkedSubAhead exact ahead
  refine ⟨d, ?_, exact⟩
  rw [saturatingSub, difference]
  rfl

theorem saturatingSubMeets {a b : Ticks} (first : a.Normalized) (second : b.Normalized)
    (ordered : b.get ≤ a.get) :
    ∃ d, a.saturatingSub b = .ok d ∧ d.Normalized ∧ d.get + b.get = a.get := by
  obtain ⟨d, difference, exact, total⟩ := saturatingSubAhead second ((leGet second first).2 ordered)
  exact ⟨d, difference, exact first, total⟩

end Ticks

end RobotLink
