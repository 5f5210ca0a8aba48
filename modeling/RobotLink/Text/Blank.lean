/-! White space: which characters separate words, and the words of a line. -/
namespace RobotLink.Text

def isBlank (c : Char) : Bool :=
  let n := c.toNat
  (9 ≤ n && n ≤ 13) || n = 0x20 || n = 0x85 || n = 0xA0 || n = 0x1680 || (0x2000 ≤ n && n ≤ 0x200A)
    || n = 0x2028 || n = 0x2029 || n = 0x202F || n = 0x205F || n = 0x3000

def wordsFrom : List Char → List Char → List (List Char)
  | [], [] => []
  | word, [] => [word.reverse]
  | [], c :: rest => if isBlank c then wordsFrom [] rest else wordsFrom [c] rest
  | word, c :: rest =>
    if isBlank c then word.reverse :: wordsFrom [] rest else wordsFrom (c :: word) rest

def words (s : String) : List String := (wordsFrom [] s.toList).map String.ofList

end RobotLink.Text
