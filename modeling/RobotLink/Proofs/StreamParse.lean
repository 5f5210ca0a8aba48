import RobotLink.Reassembler

/-! A whole stream read at once, without a cursor: a length, a body, and so on to an unfinished
end. Cutting a stream that arrives in two parts goes on from the end of the first part, so what
is cut does not depend on where the parts meet. -/
namespace RobotLink

def wholeFrames (limit : UInt32) : Bytes → List Frame × Tail
  | a :: b :: c :: d :: rest =>
    let length := Bytes.toNat [a, b, c, d]
    if limit.toNat < length then ([], .tooLarge length.toUInt32 rest)
    else if rest.length < length then ([], .waiting (.needPayload length.toUInt32) rest)
    else
      let (later, tail) := wholeFrames limit (rest.drop length)
      match rest.take length with
      | [] => (later, tail)
      | opcode :: payload => (⟨opcode, payload⟩ :: later, tail)
  | short => ([], .waiting .needLength short)
termination_by stream => stream.length
decreasing_by
  change _ < rest.length + 4
  rw [List.length_drop]
  exact Nat.lt_of_le_of_lt (Nat.sub_le _ _) (Nat.lt_add_of_pos_right (by decide))

def Piece.frame? : Piece → Option Frame
  | .empty => none
  | .frame f => some f

def framesOf (cut : List Piece) : List Frame := cut.filterMap Piece.frame?

theorem framesOfAppend (first later : List Piece) :
    framesOf (first ++ later) = framesOf first ++ framesOf later := List.filterMap_append

theorem framesOfReplicate (n : Nat) : framesOf (List.replicate n .empty) = [] := by
  induction n with
  | zero => rfl
  | succ n ih => exact ih

theorem framesOfFrame (f : Frame) (cut : List Piece) :
    framesOf (.frame f :: cut) = f :: framesOf cut := rfl

theorem countFrames (cut : List Piece) : cut.countP Piece.isFrame = (framesOf cut).length := by
  induction cut with
  | nil => rfl
  | cons piece rest ih =>
    cases piece with
    | empty => exact ih
    | frame f =>
      rw [List.countP_cons_of_pos rfl, framesOfFrame, List.length_cons, ih]

def Tail.resume (limit : UInt32) (more : Bytes) : Tail → List Piece × Tail
  | .waiting cursor rest => pieces limit cursor (rest ++ more)
  | .tooLarge size rest => ([], .tooLarge size (rest ++ more))

theorem splitAppend {n : Nat} {bs head tail : Bytes} (more : Bytes)
    (found : Bytes.split? n bs = some (head, tail)) :
    Bytes.split? n (bs ++ more) = some (head, tail ++ more) := by
  obtain ⟨rfl, length⟩ := Bytes.splitSome.1 found
  exact Bytes.splitSome.2 ⟨List.append_assoc head tail more, length⟩

namespace Cut

def extend (limit : UInt32) (more : Bytes) : Cut → Cut
  | .wait cursor rest => next limit cursor (rest ++ more)
  | .tooLarge size rest => .tooLarge size (rest ++ more)
  | .empty rest => .empty (rest ++ more)
  | .frame f rest => .frame f (rest ++ more)

theorem bodyAppend (limit length : UInt32) (stream more : Bytes) :
    body length (stream ++ more) = (body length stream).extend limit more := by
  cases found : Bytes.split? length.toNat stream with
  | none => simp only [body, found, extend, next]
  | some parts =>
    obtain ⟨head, tail⟩ := parts
    have longer := splitAppend more found
    cases head with
    | nil => simp only [body, found, longer, extend]
    | cons opcode payload => simp only [body, found, longer, extend]

theorem nextAppend (limit : UInt32) (cursor : Cursor) (stream more : Bytes) :
    next limit cursor (stream ++ more) = (next limit cursor stream).extend limit more := by
  cases cursor with
  | needPayload length => exact bodyAppend limit length stream more
  | needLength =>
    cases found : Bytes.split? Frame.prefixLength stream with
    | none => simp only [next, found, extend]
    | some parts =>
      obtain ⟨head, tail⟩ := parts
      have longer := splitAppend more found
      by_cases tooLong : limit < (Bytes.toNat head).toUInt32
      · simp only [next, found, longer, if_pos tooLong, extend]
      · simp only [next, found, longer, if_neg tooLong]
        exact bodyAppend limit _ tail more

end Cut

theorem piecesOfNothing (limit : UInt32) : pieces limit .needLength [] = ([], .waiting .needLength []) :=
  piecesOfShort (Nat.zero_lt_succ 3)

theorem piecesNext (limit : UInt32) (cursor : Cursor) (stream : Bytes) :
    pieces limit cursor stream =
      match Cut.next limit cursor stream with
      | .wait cursor rest => ([], .waiting cursor rest)
      | .tooLarge size rest => ([], .tooLarge size rest)
      | .empty rest =>
        (.empty :: (pieces limit .needLength rest).1, (pieces limit .needLength rest).2)
      | .frame f rest =>
        (.frame f :: (pieces limit .needLength rest).1, (pieces limit .needLength rest).2) := by
  rw [pieces]
  split
  all_goals simp_all

theorem piecesAppend (limit : UInt32) (cursor : Cursor) (stream more : Bytes) :
    pieces limit cursor (stream ++ more) =
      ((pieces limit cursor stream).1 ++ ((pieces limit cursor stream).2.resume limit more).1,
        ((pieces limit cursor stream).2.resume limit more).2) := by
  have joined := Cut.nextAppend limit cursor stream more
  cases cut : Cut.next limit cursor stream with
  | wait after rest =>
    have same : pieces limit cursor (stream ++ more) = pieces limit after (rest ++ more) := by
      rw [piecesNext, joined, cut, piecesNext limit after]
      rfl
    rw [same, piecesNext limit cursor stream, cut]
    rfl
  | tooLarge size rest =>
    rw [piecesNext, joined, cut, piecesNext limit cursor stream, cut]
    rfl
  | empty rest =>
    have := Cut.nextLt (.inl cut)
    have ih := piecesAppend limit .needLength rest more
    rw [piecesNext, joined, cut, piecesNext limit cursor stream, cut]
    simp only [Cut.extend, ih, List.cons_append]
  | frame f rest =>
    have := Cut.nextLt (.inr ⟨f, cut⟩)
    have ih := piecesAppend limit .needLength rest more
    rw [piecesNext, joined, cut, piecesNext limit cursor stream, cut]
    simp only [Cut.extend, ih, List.cons_append]
termination_by Cut.measure cursor stream

theorem piecesOfWaiting {limit : UInt32} {cursor after : Cursor} {stream rest : Bytes}
    {cut : List Piece} (h : pieces limit cursor stream = (cut, .waiting after rest)) :
    pieces limit after rest = ([], .waiting after rest) := by
  have again := piecesAppend limit cursor stream []
  simp only [h, List.append_nil, Tail.resume, Prod.mk.injEq] at again
  exact Prod.ext (List.append_right_eq_self.1 again.1.symm) again.2.symm

namespace Cut

def ofPiece : Piece → Bytes → Cut
  | .empty, rest => .empty rest
  | .frame f, rest => .frame f rest

theorem bodyHead {length : UInt32} {stream rest : Bytes} {piece : Piece} (h : body length stream = ofPiece piece rest) :
    ∃ head, stream = head ++ rest ∧ body length head = ofPiece piece [] := by
  unfold body at h
  split at h
  next => cases piece <;> cases h
  next split =>
    obtain ⟨rfl, none⟩ := Bytes.splitSome.1 split
    cases piece <;> cases h
    refine ⟨[], rfl, ?_⟩
    rw [body, Bytes.splitSome.2 ⟨(List.append_nil []).symm, none⟩]
    rfl
  next opcode payload _ split =>
    obtain ⟨rfl, whole⟩ := Bytes.splitSome.1 split
    cases piece <;> cases h
    refine ⟨opcode :: payload, rfl, ?_⟩
    rw [body, Bytes.splitSome.2 ⟨(List.append_nil _).symm, whole⟩]
    rfl

theorem nextHead {limit : UInt32} {cursor : Cursor} {stream rest : Bytes} {piece : Piece}
    (h : next limit cursor stream = ofPiece piece rest) :
    ∃ head, stream = head ++ rest ∧ next limit cursor head = ofPiece piece [] := by
  cases cursor with
  | needPayload length => exact bodyHead h
  | needLength =>
    simp only [next] at h
    split at h
    next => cases piece <;> cases h
    next first behind split =>
      obtain ⟨rfl, four⟩ := Bytes.splitSome.1 split
      by_cases tooLong : limit < (Bytes.toNat first).toUInt32
      · rw [if_pos tooLong] at h
        cases piece <;> cases h
      · rw [if_neg tooLong] at h
        obtain ⟨head, rfl, alone⟩ := bodyHead h
        have found : Bytes.split? Frame.prefixLength (first ++ head) = some (first, head) :=
          Bytes.splitSome.2 ⟨rfl, four⟩
        refine ⟨first ++ head, (List.append_assoc ..).symm, ?_⟩
        simp only [next, found, if_neg tooLong, alone]

theorem fatalLength {limit size : UInt32} {cursor : Cursor} {stream rest : Bytes}
    (h : next limit cursor stream = .tooLarge size rest) : cursor = .needLength := by
  cases cursor with
  | needLength => rfl
  | needPayload length =>
    simp only [next, body] at h
    split at h <;> cases h

end Cut

theorem piecesBehind {limit : UInt32} {cursor : Cursor} {head : Bytes} {piece : Piece}
    (alone : Cut.next limit cursor head = .ofPiece piece []) (more : Bytes) :
    pieces limit cursor (head ++ more) =
      (piece :: (pieces limit .needLength more).1, (pieces limit .needLength more).2) := by
  rw [piecesNext, Cut.nextAppend, alone]
  cases piece <;> rfl

theorem piecesBeforeFatal {limit size : UInt32} {cursor : Cursor} {stream rest : Bytes} {cut : List Piece}
    (h : pieces limit cursor stream = (cut, .tooLarge size rest)) :
    ∃ whole more, stream = whole ++ more ∧ pieces limit cursor whole = (cut, .waiting .needLength []) := by
  -- A piece at the head is cut the same when less follows it, so one step serves both kinds of piece.
  have behind (piece : Piece) {ahead : Bytes} (next : Cut.next limit cursor stream = .ofPiece piece ahead)
      (ih : ∀ {later}, pieces limit .needLength ahead = (later, .tooLarge size rest) →
        ∃ whole more, ahead = whole ++ more ∧ pieces limit .needLength whole = (later, .waiting .needLength [])) :
      ∃ whole more, stream = whole ++ more ∧ pieces limit cursor whole = (cut, .waiting .needLength []) := by
    obtain ⟨head, rfl, alone⟩ := Cut.nextHead next
    rw [piecesBehind alone] at h
    obtain ⟨rfl, tail⟩ := Prod.mk.inj h
    obtain ⟨whole, more, rfl, same⟩ := ih (Prod.ext rfl tail)
    refine ⟨head ++ whole, more, (List.append_assoc ..).symm, ?_⟩
    rw [piecesBehind alone, same]
  cases next : Cut.next limit cursor stream with
  | wait after rest =>
    rw [piecesNext, next] at h
    cases h
  | tooLarge size rest =>
    rw [piecesNext, next] at h
    cases h
    rw [Cut.fatalLength next]
    exact ⟨[], stream, rfl, piecesOfNothing limit⟩
  | empty ahead =>
    have := Cut.nextLt (.inl next)
    exact behind .empty next piecesBeforeFatal
  | frame f ahead =>
    have := Cut.nextLt (.inr ⟨f, next⟩)
    exact behind (.frame f) next piecesBeforeFatal
termination_by Cut.measure cursor stream

theorem splitTake {n : Nat} {bs : Bytes} (within : n ≤ bs.length) :
    Bytes.split? n bs = some (bs.take n, bs.drop n) :=
  Bytes.splitSome.2 ⟨(List.take_append_drop n bs).symm, List.length_take_of_le within⟩

theorem lengthOfPrefix (a b c d : UInt8) :
    (Bytes.toNat [a, b, c, d]).toUInt32.toNat = Bytes.toNat [a, b, c, d] := by
  have bound : Bytes.toNat [a, b, c, d] < UInt32.size := Bytes.toNatLt [a, b, c, d]
  exact UInt32.toNat_ofNat_of_lt bound

theorem Cut.nextOfPrefix (limit : UInt32) (a b c d : UInt8) (rest : Bytes) :
    Cut.next limit .needLength (a :: b :: c :: d :: rest) =
      let length := Bytes.toNat [a, b, c, d]
      if limit.toNat < length then .tooLarge length.toUInt32 rest
      else if rest.length < length then .wait (.needPayload length.toUInt32) rest
      else
        match rest.take length with
        | [] => .empty (rest.drop length)
        | opcode :: payload => .frame ⟨opcode, payload⟩ (rest.drop length) := by
  have found : Bytes.split? Frame.prefixLength (a :: b :: c :: d :: rest) = some ([a, b, c, d], rest) :=
    Bytes.splitSome.2 ⟨rfl, rfl⟩
  have exact := lengthOfPrefix a b c d
  simp only [Cut.next, found, UInt32.lt_iff_toNat_lt, exact]
  split
  next => rfl
  next =>
    by_cases short : rest.length < Bytes.toNat [a, b, c, d]
    · rw [if_pos short]
      simp only [Cut.body, exact, Bytes.splitNone.2 short]
    · rw [if_neg short]
      simp only [Cut.body, exact, splitTake (Nat.le_of_not_lt short)]
      cases List.take (Bytes.toNat [a, b, c, d]) rest with
      | nil => rfl
      | cons opcode payload => rfl

theorem wholeFramesEqPieces (limit : UInt32) (stream : Bytes) :
    wholeFrames limit stream =
      (framesOf (pieces limit .needLength stream).1, (pieces limit .needLength stream).2) := by
  fun_induction wholeFrames limit stream with
  | case1 a b c d rest length tooLong =>
    rw [piecesNext, Cut.nextOfPrefix]
    simp only [length] at tooLong
    simp only [if_pos tooLong]
    rfl
  | case2 a b c d rest length within short =>
    rw [piecesNext, Cut.nextOfPrefix]
    simp only [length] at within short
    simp only [if_neg within, if_pos short]
    rfl
  | case3 a b c d rest length within enough later tail found body ih =>
    rw [piecesNext, Cut.nextOfPrefix]
    simp only [length] at within enough body
    simp only [if_neg within, if_neg enough, body]
    exact found.symm.trans ih
  | case4 a b c d rest length within enough later tail found opcode payload body ih =>
    rw [piecesNext, Cut.nextOfPrefix]
    simp only [length] at within enough body
    simp only [if_neg within, if_neg enough, body]
    obtain ⟨frames, ending⟩ := Prod.mk.inj (found.symm.trans ih)
    simp only [framesOfFrame]
    exact Prod.ext (congrArg (⟨opcode, payload⟩ :: ·) frames) ending
  | case5 stream short =>
    have few : stream.length < Frame.prefixLength := by
      match stream with
      | [] | [_] | [_, _] | [_, _, _] => simp [Frame.prefixLength]
      | a :: b :: c :: d :: rest => exact absurd rfl (short a b c d rest)
    rw [piecesOfShort few]
    rfl

end RobotLink
