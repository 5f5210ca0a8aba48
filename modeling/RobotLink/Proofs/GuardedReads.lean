import RobotLink.Proofs.PayloadRoundTrip

/-! Reads by bare accesses to the bytes that are left. An access beyond their end breaks off and gives nothing, not
even an error; behind the checks that the reads make none ever does, so that they are the reads of a payload, and
what a read leaves, failed or not, is an end of what it was given. -/
namespace RobotLink

abbrev Access := ExceptT DecodeError (StateT Bytes Option)

namespace Access

def run {α : Type} (access : Access α) (bytes : Bytes) : Option (Except DecodeError α × Bytes) := access bytes

def cut (n : Nat) : Access Bytes := fun bytes =>
  if n ≤ bytes.length then some (.ok (bytes.take n), bytes.drop n) else none

def ensure (needed : Nat) : Access Unit := do
  let rest ← get
  if rest.length < needed then throw (.unexpectedEnd needed rest.length)

def take (n : Nat) : Access Bytes := do
  ensure n
  cut n

def u8 : Access UInt8 := do return (Bytes.toNat (← take 1)).toUInt8
def u16 : Access UInt16 := do return (Bytes.toNat (← take 2)).toUInt16
def u32 : Access UInt32 := do return (Bytes.toNat (← take 4)).toUInt32
def float : Access UInt64 := do return (Bytes.toNat (← take 8)).toUInt64

def bool : Access Bool := do
  let byte ← u8
  if byte = 0 then return false
  else if byte = 1 then return true
  else throw (.invalidBool byte)

def blob : Access Bytes := do take (← u32).toNat

def text : Access String := do
  match Bytes.toText? (← blob) with
  | some s => return s
  | none => throw .invalidUtf8

def times {α : Type} (access : Access α) : Nat → Access (List α)
  | 0 => return []
  | n + 1 => do
    let head ← access
    let tail ← times access n
    return head :: tail

def texts : Access (List String) := do
  let count := (← u32).toNat
  ensure (count * 4)
  times text count

def arg : Access LuaArg := do
  let tag ← u8
  if tag = 0 then return .bool (← bool)
  else if tag = 1 then return .float (← float)
  else if tag = 2 then return .text (← text)
  else throw (.unknownArgTag tag)

variable {α β : Type}

structure Guarded (access : Access α) (read : Read α) : Prop where
  same : ∀ bytes, access.run bytes = some (Read.run read bytes)
  onward : ∀ bytes, (Read.run read bytes).2 <:+ bytes

theorem runBind (access : Access α) (next : α → Access β) (bytes : Bytes) :
    run (access >>= next) bytes =
      match access.run bytes with
      | some (.ok value, rest) => (next value).run rest
      | some (.error e, rest) => some (.error e, rest)
      | none => none := by
  change run (ExceptT.bind access next) bytes = _
  simp only [run, ExceptT.bind, ExceptT.mk, bind, StateT.bind]
  rcases access bytes with _ | ⟨_ | _, rest⟩
  · rfl
  · rfl
  · rfl

theorem guardedPure (value : α) : Guarded (pure value) (pure value) :=
  ⟨fun _ => rfl, List.suffix_refl⟩

theorem guardedThrow (e : DecodeError) : Guarded (throw e : Access α) (throw e) :=
  ⟨fun _ => rfl, List.suffix_refl⟩

theorem guardedBind {access : Access α} {read : Read α} {next : α → Access β} {later : α → Read β}
    (head : Guarded access read) (tail : ∀ a, Guarded (next a) (later a)) :
    Guarded (access >>= next) (read >>= later) := by
  constructor
  · intro bytes
    rw [runBind, head.same, Read.runBind]
    rcases Read.run read bytes with ⟨_ | a, rest⟩
    · rfl
    · exact (tail a).same rest
  · intro bytes
    have first := head.onward bytes
    rw [Read.runBind]
    generalize Read.run read bytes = outcome at first ⊢
    rcases outcome with ⟨_ | a, rest⟩
    · exact first
    · exact ((tail a).onward rest).trans first

theorem guardedReturn {access : Access α} {read : Read α} (f : α → β) (head : Guarded access read) :
    Guarded (do return f (← access)) (do return f (← read)) :=
  guardedBind head fun a => guardedPure (f a)

theorem runEnsure (needed : Nat) (bytes : Bytes) :
    run (ensure needed) bytes =
      if bytes.length < needed then some (.error (.unexpectedEnd needed bytes.length), bytes)
      else some (.ok (), bytes) := by
  have opened : run (ensure needed) bytes =
      run (if bytes.length < needed then throw (.unexpectedEnd needed bytes.length) else pure ()) bytes := rfl
  rw [opened]
  split
  next => rfl
  next => rfl

theorem guardedEnsure (needed : Nat) : Guarded (ensure needed) (Read.ensure needed) := by
  constructor
  · intro bytes
    rw [runEnsure, Read.runEnsure]
    split <;> rfl
  · intro bytes
    rw [Read.runEnsure]
    split <;> exact List.suffix_refl bytes

theorem guardedTake (n : Nat) : Guarded (take n) (Read.take n) := by
  constructor
  · intro bytes
    rw [take, runBind, runEnsure, Read.runTake]
    by_cases short : bytes.length < n
    · rw [if_pos short, Bytes.splitNone.2 short]
    · have enough : n ≤ bytes.length := Nat.le_of_not_lt short
      have parts : Bytes.split? n bytes = some (bytes.take n, bytes.drop n) :=
        Bytes.splitSome.2 ⟨(List.take_append_drop n bytes).symm, List.length_take_of_le enough⟩
      rw [if_neg short, parts]
      exact if_pos enough
  · intro bytes
    rw [Read.runTake]
    split
    next head tail parts =>
      obtain ⟨rfl, _⟩ := Bytes.splitSome.1 parts
      exact List.suffix_append head tail
    next => exact List.suffix_refl bytes

theorem guardedTimes {access : Access α} {read : Read α} (each : Guarded access read) (n : Nat) :
    Guarded (times access n) (Read.times read n) := by
  induction n with
  | zero => exact guardedPure []
  | succ n ih => exact guardedBind each fun head => guardedReturn (head :: ·) ih

theorem guardedU8 : Guarded u8 Read.u8 := guardedReturn _ (guardedTake 1)

theorem guardedU16 : Guarded u16 Read.u16 := guardedReturn _ (guardedTake 2)

theorem guardedU32 : Guarded u32 Read.u32 := guardedReturn _ (guardedTake 4)

theorem guardedFloat : Guarded float Read.float := guardedReturn _ (guardedTake 8)

theorem guardedBool : Guarded bool Read.bool := by
  refine guardedBind guardedU8 fun byte => ?_
  by_cases no : byte = 0
  · subst no
    exact guardedPure false
  · by_cases yes : byte = 1
    · subst yes
      exact guardedPure true
    · rw [if_neg no, if_neg yes]
      split
      next => exact absurd rfl no
      next => exact absurd rfl yes
      next => exact guardedThrow _

theorem guardedBlob : Guarded blob Read.blob := guardedBind guardedU32 fun count => guardedTake count.toNat

theorem guardedText : Guarded text Read.text := by
  refine guardedBind guardedBlob fun bytes => ?_
  cases Bytes.toText? bytes with
  | none => exact guardedThrow _
  | some s => exact guardedPure s

theorem guardedTexts : Guarded texts Read.texts :=
  guardedBind guardedU32 fun count => guardedBind (guardedEnsure (count.toNat * 4)) fun _ =>
    guardedTimes guardedText count.toNat

theorem guardedArg : Guarded arg Read.arg := by
  refine guardedBind guardedU8 fun tag => ?_
  by_cases bool : tag = 0
  · subst bool
    exact guardedReturn _ guardedBool
  · by_cases float : tag = 1
    · subst float
      exact guardedReturn _ guardedFloat
    · by_cases text : tag = 2
      · subst text
        exact guardedReturn _ guardedText
      · rw [if_neg bool, if_neg float, if_neg text]
        split
        next => exact absurd rfl bool
        next => exact absurd rfl float
        next => exact absurd rfl text
        next => exact guardedThrow _

end Access

end RobotLink
