/-! Byte strings: little-endian numbers of any width, and text as its UTF-8 bytes. Writing a
number and reading it back returns it, up to the width; reading a text and writing it back
returns the bytes. -/
namespace RobotLink

abbrev Bytes := List UInt8

namespace Bytes

def ofNat : (width n : Nat) → Bytes
  | 0, _ => []
  | width + 1, n => n.toUInt8 :: ofNat width (n / 256)

def toNat : Bytes → Nat
  | [] => 0
  | b :: rest => b.toNat + 256 * toNat rest

theorem lengthOfNat (width n : Nat) : (ofNat width n).length = width := by
  induction width generalizing n with
  | zero => rfl
  | succ width ih => simp [ofNat, ih]

def span : (width : Nat) → Nat
  | 0 => 1
  | width + 1 => 256 * span width

theorem toNatOfNat (width n : Nat) : toNat (ofNat width n) = n % span width := by
  induction width generalizing n with
  | zero => simp [ofNat, toNat, span, Nat.mod_one]
  | succ width ih =>
    have low : n.toUInt8.toNat = n % 256 := UInt8.toNat_ofNat'
    rw [ofNat, toNat, ih, low, span, Nat.mod_mul]

theorem toNatLt (bs : Bytes) : toNat bs < span bs.length := by
  induction bs with
  | nil => simp [toNat, span]
  | cons b rest ih =>
    have low := b.toNat_lt
    simp only [toNat, List.length_cons, span]
    omega

theorem ofNatToNat (bs : Bytes) : ofNat bs.length (toNat bs) = bs := by
  induction bs with
  | nil => rfl
  | cons b rest ih =>
    have low := b.toNat_lt
    have head : (b.toNat + 256 * toNat rest).toUInt8 = b := by
      apply UInt8.toNat_inj.1
      rw [show (b.toNat + 256 * toNat rest).toUInt8.toNat = (b.toNat + 256 * toNat rest) % 256 from
        UInt8.toNat_ofNat']
      omega
    have tail : (b.toNat + 256 * toNat rest) / 256 = toNat rest := by omega
    simp only [toNat, List.length_cons, ofNat, head, tail, ih]

def split? (n : Nat) (bs : Bytes) : Option (Bytes × Bytes) :=
  match bs.drop n with
  | [] => if bs.length = n then some (bs, []) else none
  | b :: rest => some (bs.take n, b :: rest)

theorem splitSome {n : Nat} {bs head tail : Bytes} :
    split? n bs = some (head, tail) ↔ bs = head ++ tail ∧ head.length = n := by
  unfold split?
  constructor
  · intro found
    split at found
    next =>
      split at found
      next len =>
        cases found
        exact ⟨(List.append_nil _).symm, len⟩
      next => cases found
    next b rest more =>
      cases found
      have beyond : n < bs.length := by
        have length := congrArg List.length more
        simp only [List.length_drop, List.length_cons] at length
        omega
      exact ⟨more ▸ (List.take_append_drop n bs).symm, List.length_take_of_le (Nat.le_of_lt beyond)⟩
  · rintro ⟨rfl, rfl⟩
    cases tail <;> simp

theorem splitNone {n : Nat} {bs : Bytes} : split? n bs = none ↔ bs.length < n := by
  unfold split?
  split
  next short =>
    have within := List.drop_eq_nil_iff.1 short
    split
    all_goals simp only [reduceCtorEq, false_iff, true_iff]
    all_goals omega
  next b rest more =>
    have length := congrArg List.length more
    simp only [List.length_drop, List.length_cons] at length
    simp only [reduceCtorEq, false_iff]
    omega

def ofText (s : String) : Bytes := s.toUTF8.data.toList

def toText? (bs : Bytes) : Option String := String.fromUTF8? bs.toByteArray

theorem toByteArrayOfText (s : String) : (ofText s).toByteArray = s.toUTF8 := by
  apply ByteArray.ext
  rw [ofText, List.data_toByteArray, Array.toArray_toList]

theorem toTextOfText (s : String) : toText? (ofText s) = some s := by
  rw [toText?, toByteArrayOfText, String.fromUTF8?, String.toUTF8_eq_toByteArray, dif_pos s.isValidUTF8]
  rfl

theorem ofTextToText {bs : Bytes} {s : String} (h : toText? bs = some s) : ofText s = bs := by
  unfold toText? String.fromUTF8? at h
  split at h
  next valid =>
    cases h
    simp [ofText, String.toUTF8_eq_toByteArray, String.fromUTF8]
  next => cases h

end Bytes

end RobotLink
