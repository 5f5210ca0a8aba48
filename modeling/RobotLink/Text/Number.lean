/-! Decimal numbers as they are typed: digits with a sign in front of them if it is allowed. -/
namespace RobotLink.Text

def digits? (cs : List Char) : Option Nat :=
  if cs.isEmpty || !cs.all Char.isDigit then none
  else some (cs.foldl (fun n c => n * 10 + (c.toNat - 48)) 0)

def natural? (bound : Nat) (s : String) : Option Nat :=
  let digits := match s.toList with
    | '+' :: rest => rest
    | cs => cs
  (digits? digits).filter (· < bound)

def signed? (bound : Nat) (s : String) : Option Nat :=
  match s.toList with
  | '-' :: rest => (digits? rest).filter (· = 0)
  | _ => natural? bound s

end RobotLink.Text
