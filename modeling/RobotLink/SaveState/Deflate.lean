import RobotLink.Bytes

/-! Compressed streams of literal, fixed and dynamic blocks, read bit by bit. Symbols come from
canonical prefix codes; a copy repeats output already produced. Writing uses literal blocks alone,
so that every stream written reads back as its bytes. -/
namespace RobotLink.Deflate

structure BitStream where
  bytes : Bytes
  taken : Nat
  deriving DecidableEq, Repr

namespace BitStream

def bit? (s : BitStream) : Option (Nat × BitStream) :=
  match s.bytes with
  | [] => none
  | b :: rest =>
    let value := b.toNat >>> s.taken % 2
    some (value, if s.taken = 7 then ⟨rest, 0⟩ else ⟨b :: rest, s.taken + 1⟩)

def number? : Nat → BitStream → Option (Nat × BitStream)
  | 0, s => some (0, s)
  | width + 1, s => do
    let (low, s) ← s.bit?
    let (high, s) ← number? width s
    return (low + 2 * high, s)

def align (s : BitStream) : Bytes := if s.taken = 0 then s.bytes else s.bytes.drop 1

end BitStream

/-- A prefix code: the symbols of each code length from one up, in ascending order, or a single
symbol whose code word is this many zeros. -/
inductive PrefixCode where
  | canonical (levels : List (Array Nat))
  | lone (symbol length : Nat)
  deriving DecidableEq, Repr

namespace PrefixCode

def maxLength : Nat := 15

def ofLengths (lengths : List Nat) : PrefixCode :=
  match lengths.zipIdx.filter fun (length, _) => length ≠ 0 with
  | [(length, symbol)] => .lone symbol length
  | used => .canonical <| (List.range maxLength).map fun level =>
    (used.filterMap fun (length, symbol) => if length = level + 1 then some symbol else none).toArray

def complete : PrefixCode → Bool
  | .canonical levels => levels.foldl (fun (unused : Int) symbols => 2 * unused - symbols.size) 1 = 0
  | .lone .. => false

def empty : PrefixCode → Bool
  | .canonical levels => levels.all Array.isEmpty
  | .lone .. => false

def walk : List (Array Nat) → (code : Nat) → BitStream → Option (Nat × BitStream)
  | [], _, _ => none
  | symbols :: levels, code, s => do
    let (bit, s) ← s.bit?
    let code := 2 * code + bit
    if h : code < symbols.size then return (symbols[code], s)
    else walk levels (code - symbols.size) s

def stepBits : Nat := 10

def walkLone (symbol : Nat) : (zeros more : Nat) → BitStream → Option (Nat × BitStream)
  | _, 0, s => some (symbol, s)
  | zeros, more + 1, s => do
    let (bit, s) ← s.bit?
    if bit = 0 then walkLone symbol (zeros + 1) more s
    else if zeros < stepBits then none
    else return (0, s)

def symbol? : PrefixCode → BitStream → Option (Nat × BitStream)
  | .canonical levels, s => walk levels 0 s
  | .lone symbol length, s => walkLone symbol 0 length s

end PrefixCode

def lengthBases : List (Nat × Nat) :=
  [(3, 0), (4, 0), (5, 0), (6, 0), (7, 0), (8, 0), (9, 0), (10, 0), (11, 1), (13, 1), (15, 1), (17, 1),
    (19, 2), (23, 2), (27, 2), (31, 2), (35, 3), (43, 3), (51, 3), (59, 3), (67, 4), (83, 4), (99, 4),
    (115, 4), (131, 5), (163, 5), (195, 5), (227, 5), (258, 0)]

def distanceBases : List (Nat × Nat) :=
  [(1, 0), (2, 0), (3, 0), (4, 0), (5, 1), (7, 1), (9, 2), (13, 2), (17, 3), (25, 3), (33, 4), (49, 4),
    (65, 5), (97, 5), (129, 6), (193, 6), (257, 7), (385, 7), (513, 8), (769, 8), (1025, 9), (1537, 9),
    (2049, 10), (3073, 10), (4097, 11), (6145, 11), (8193, 12), (12289, 12), (16385, 13), (24577, 13)]

def copy (distance : Nat) : (count : Nat) → Array UInt8 → Array UInt8
  | 0, out => out
  | count + 1, out => copy distance count (out.push (out.getD (out.size - distance) 0))

structure Codes where
  literals : PrefixCode
  distances : PrefixCode
  deriving DecidableEq, Repr

def based? (bases : List (Nat × Nat)) (index : Nat) (s : BitStream) : Option (Nat × BitStream) := do
  let (base, width) ← bases[index]?
  let (extra, s) ← s.number? width
  return (base + extra, s)

def symbols (codes : Codes) : (bound : Nat) → BitStream → Array UInt8 → Option (Array UInt8 × BitStream)
  | 0, _, _ => none
  | bound + 1, s, out => do
    let (symbol, s) ← codes.literals.symbol? s
    if symbol < 256 then symbols codes bound s (out.push symbol.toUInt8)
    else if symbol = 256 then return (out, s)
    else
      let (count, s) ← based? lengthBases (symbol - 257) s
      let (index, s) ← codes.distances.symbol? s
      let (distance, s) ← based? distanceBases index s
      if out.size < distance then none
      else symbols codes bound s (copy distance count out)

def fixedCodes : Codes :=
  ⟨.ofLengths (List.replicate 144 8 ++ List.replicate 112 9 ++ List.replicate 24 7 ++ List.replicate 8 8),
    .ofLengths (List.replicate 32 5)⟩

def lengthOrder : List Nat := [16, 17, 18, 0, 8, 7, 9, 6, 10, 5, 11, 4, 12, 3, 13, 2, 14, 1, 15]

def numbers? (width : Nat) : Nat → BitStream → Option (List Nat × BitStream)
  | 0, s => some ([], s)
  | count + 1, s => do
    let (n, s) ← s.number? width
    let (rest, s) ← numbers? width count s
    return (n :: rest, s)

def codeLengths (code : PrefixCode) (total : Nat) :
    (bound : Nat) → BitStream → List Nat → Option (List Nat × BitStream)
  | 0, _, _ => none
  | bound + 1, s, lengths =>
    if lengths.length = total then some (lengths.reverse, s)
    else if total < lengths.length then none
    else do
      let (symbol, s) ← code.symbol? s
      if symbol < 16 then codeLengths code total bound s (symbol :: lengths)
      else
        let (repeated, width, least) ← match symbol with
          | 16 => lengths.head?.map fun previous => (previous, 2, 3)
          | 17 => some (0, 3, 3)
          | _ => some (0, 7, 11)
        let (extra, s) ← s.number? width
        codeLengths code total bound s (List.replicate (least + extra) repeated ++ lengths)

def usable : PrefixCode → Bool
  | .lone .. => true
  | c => c.complete || c.empty

def dynamicCodes? (s : BitStream) : Option (Codes × BitStream) := do
  let (literalCount, s) ← s.number? 5
  let (distanceCount, s) ← s.number? 5
  let (orderCount, s) ← s.number? 4
  let (written, s) ← numbers? 3 (orderCount + 4) s
  if 29 < literalCount || 29 < distanceCount then none
  else
    let lengthOf (symbol : Nat) : Nat := (lengthOrder.zip written).lookup symbol |>.getD 0
    let code := PrefixCode.ofLengths ((List.range 19).map lengthOf)
    if !code.complete then none
    else
      let total := literalCount + 257 + (distanceCount + 1)
      let (lengths, s) ← codeLengths code total (total + 1) s []
      let codes : Codes :=
        ⟨.ofLengths (lengths.take (literalCount + 257)), .ofLengths (lengths.drop (literalCount + 257))⟩
      if usable codes.literals && usable codes.distances then return (codes, s) else none

def literal? (s : BitStream) (out : Array UInt8) : Option (Array UInt8 × BitStream) := do
  let (low, rest) ← Bytes.split? 2 s.align
  let (check, rest) ← Bytes.split? 2 rest
  if Bytes.toNat low + Bytes.toNat check ≠ 0xFFFF then none
  else
    let (bytes, rest) ← Bytes.split? (Bytes.toNat low) rest
    return (out ++ bytes.toArray, ⟨rest, 0⟩)

def block? (kind bound : Nat) (s : BitStream) (out : Array UInt8) : Option (Array UInt8 × BitStream) :=
  match kind with
  | 0 => literal? s out
  | 1 => symbols fixedCodes bound s out
  | 2 => do
    let (codes, s) ← dynamicCodes? s
    symbols codes bound s out
  | _ => none

/-- Reads blocks up to the last one. Every block takes three bits, so that the bits of the stream
bound their number. -/
def blocks : (bound : Nat) → BitStream → Array UInt8 → Option (Array UInt8)
  | 0, _, _ => none
  | bound + 1, s, out => do
    let (last, s) ← s.bit?
    let (kind, s) ← s.number? 2
    let (out, s) ← block? kind bound s out
    if last = 1 then return out else blocks bound s out

def inflate (stream : Bytes) : Option Bytes :=
  (blocks (8 * stream.length + 1) ⟨stream, 0⟩ #[]).map Array.toList

def literalLimit : Nat := 65535

def literalBlock (last : Bool) (bytes : Bytes) : Bytes :=
  (if last then 1 else 0) :: Bytes.ofNat 2 bytes.length ++ Bytes.ofNat 2 (literalLimit - bytes.length) ++ bytes

def deflate (bytes : Bytes) : Bytes :=
  if _ : bytes.length ≤ literalLimit then literalBlock true bytes
  else literalBlock false (bytes.take literalLimit) ++ deflate (bytes.drop literalLimit)
termination_by bytes.length
decreasing_by
  simp only [List.length_drop, literalLimit] at *
  omega

end RobotLink.Deflate
