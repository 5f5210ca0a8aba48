import RobotLink.Bytes

/-! Lenient reading of UTF-8: every longest prefix of a character that goes no further becomes
one replacement character. -/
namespace RobotLink.Text

def continuation (b : UInt8) : Nat := b.toNat % 64

def isContinuation (b : UInt8) : Bool := 0x80 ≤ b && b ≤ 0xBF

def mayFollow (lead b : UInt8) : Bool :=
  if lead = 0xE0 then 0xA0 ≤ b && b ≤ 0xBF
  else if lead = 0xED then 0x80 ≤ b && b ≤ 0x9F
  else if lead = 0xF0 then 0x90 ≤ b && b ≤ 0xBF
  else if lead = 0xF4 then 0x80 ≤ b && b ≤ 0x8F
  else isContinuation b

def replacement : Char := Char.ofNat 0xFFFD

def lenientHead (lead : UInt8) (rest : Bytes) : Char × Bytes :=
  if lead < 0x80 then (Char.ofNat lead.toNat, rest)
  else if lead < 0xC2 || 0xF4 < lead then (replacement, rest)
  else
    match rest with
    | [] => (replacement, [])
    | b :: rest =>
      if !mayFollow lead b then (replacement, b :: rest)
      else if lead < 0xE0 then (Char.ofNat (lead.toNat % 32 * 64 + continuation b), rest)
      else
        match rest with
        | [] => (replacement, [])
        | c :: rest =>
          if !isContinuation c then (replacement, c :: rest)
          else if lead < 0xF0 then
            (Char.ofNat (lead.toNat % 16 * 4096 + continuation b * 64 + continuation c), rest)
          else
            match rest with
            | [] => (replacement, [])
            | d :: rest =>
              if !isContinuation d then (replacement, d :: rest)
              else
                (Char.ofNat (lead.toNat % 8 * 262144 + continuation b * 4096 + continuation c * 64
                  + continuation d), rest)

theorem lenientHeadLength (lead : UInt8) (rest : Bytes) :
    (lenientHead lead rest).2.length ≤ rest.length := by
  unfold lenientHead
  repeat' split
  all_goals simp_all
  all_goals omega

def lenientChars : Bytes → List Char
  | [] => []
  | lead :: rest =>
    let head := lenientHead lead rest
    head.1 :: lenientChars head.2
termination_by bs => bs.length
decreasing_by exact Nat.lt_succ_of_le (lenientHeadLength lead rest)

def lenient (bs : Bytes) : String := String.ofList (lenientChars bs)

end RobotLink.Text
