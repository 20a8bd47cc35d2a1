import Diskette.Bytes

/-!
# Deflated data

A deflated stream is a sequence of blocks, each stored as it is or coded with a pair of prefix
codes. Bits come lowest first, and nothing counts after the last block. A stream that ends before
that is told apart from one that breaks the rules. Bytes before the first one count as zeros when a
match reaches back to them.
-/

set_option autoImplicit false

namespace Diskette.Zip.Inflate

inductive Stop where
  | cutShort
  | corrupt
  deriving DecidableEq, Repr

structure State where
  held : Nat
  count : Nat
  input : Bytes
  output : Array UInt8

abbrev Reading := StateT State (Except Stop)

def fill (n : Nat) : (held count : Nat) → Bytes → Option (Nat × Nat × Bytes)
  | held, count, [] => if n ≤ count then some (held, count, []) else none
  | held, count, b :: rest =>
    if n ≤ count then some (held, count, b :: rest)
    else fill n (held + (b.toNat <<< count)) (count + 8) rest

def bits (n : Nat) : Reading Nat := do
  let s ← get
  match fill n s.held s.count s.input with
  | none => throw .cutShort
  | some (held, count, input) =>
    set { s with held := held >>> n, count := count - n, input := input }
    pure (held % (1 <<< n))

def push (b : UInt8) : Reading Unit :=
  modify (fun s => { s with output := s.output.push b })

/-- A canonical prefix code: how many symbols have codes of length 1, 2, … up to the greatest, and
the symbols in the order of their codes. -/
structure Code where
  counts : List Nat
  symbols : Array Nat

namespace Code

def ofLengths (lengths : List Nat) : Code :=
  let longest := lengths.foldl max 1
  let indexed := lengths.zipIdx
  let ofLength (n : Nat) : List Nat := (indexed.filter (fun p => p.1 == n)).map (·.2)
  let groups := (List.range longest).map (fun n => ofLength (n + 1))
  ⟨groups.map List.length, groups.flatten.toArray⟩

/-- The share of all codes of the greatest length that start with a code of the counts. -/
def weight : List Nat → Nat
  | [] => 0
  | n :: rest => n <<< rest.length + weight rest

def isComplete (c : Code) : Bool := weight c.counts == 1 <<< c.counts.length

def isUsable (c : Code) : Bool := c.isComplete || c.counts == [0] || c.counts == [1]

/-- Read one symbol bit by bit. Of the codes of the current length `first` is the first, and
`index` symbols have shorter codes. -/
def readFrom (symbols : Array Nat) : List Nat → (code first index : Nat) → Reading Nat
  | [], _, _, _ => throw .corrupt
  | n :: rest, code, first, index => do
    let code := code + (← bits 1)
    if code < first + n then
      match symbols[index + (code - first)]? with
      | some symbol => pure symbol
      | none => throw .corrupt
    else readFrom symbols rest (2 * code) (2 * (first + n)) (index + n)

def read (c : Code) : Reading Nat := readFrom c.symbols c.counts 0 0 0

end Code

def lengthTable : Array (Nat × Nat) :=
  #[(3, 0), (4, 0), (5, 0), (6, 0), (7, 0), (8, 0), (9, 0), (10, 0), (11, 1), (13, 1), (15, 1),
    (17, 1), (19, 2), (23, 2), (27, 2), (31, 2), (35, 3), (43, 3), (51, 3), (59, 3), (67, 4),
    (83, 4), (99, 4), (115, 4), (131, 5), (163, 5), (195, 5), (227, 5), (258, 0)]

def distanceTable : Array (Nat × Nat) :=
  #[(1, 0), (2, 0), (3, 0), (4, 0), (5, 1), (7, 1), (9, 2), (13, 2), (17, 3), (25, 3), (33, 4),
    (49, 4), (65, 5), (97, 5), (129, 6), (193, 6), (257, 7), (385, 7), (513, 8), (769, 8),
    (1025, 9), (1537, 9), (2049, 10), (3073, 10), (4097, 11), (6145, 11), (8193, 12), (12289, 12),
    (16385, 13), (24577, 13)]

def extended (table : Array (Nat × Nat)) (symbol : Nat) : Reading Nat :=
  match table[symbol]? with
  | none => throw .corrupt
  | some (base, extra) => do
    let more ← bits extra
    pure (base + more)

def repeatBack (distance : Nat) : (length : Nat) → Array UInt8 → Array UInt8
  | 0, out => out
  | n + 1, out =>
    let b := if distance ≤ out.size then out.getD (out.size - distance) 0 else 0
    repeatBack distance n (out.push b)

def symbols (literals distances : Code) : (fuel : Nat) → Reading Unit
  | 0 => throw .corrupt
  | fuel + 1 => do
    let symbol ← literals.read
    if symbol < 256 then
      push (UInt8.ofNat symbol)
      symbols literals distances fuel
    else if symbol = 256 then pure ()
    else
      let length ← extended lengthTable (symbol - 257)
      let distance ← extended distanceTable (← distances.read)
      modify (fun s => { s with output := repeatBack distance length s.output })
      symbols literals distances fuel

/-- A stored block starts at a whole byte and gives its length twice, once complemented. -/
def storedBlock : Reading Unit := do
  modify (fun s => { s with held := 0, count := 0 })
  let length ← bits 16
  let complement ← bits 16
  if length + complement ≠ 0xFFFF then throw .corrupt
  let s ← get
  let data := s.input.take length
  set { s with input := s.input.drop length, output := s.output ++ data.toArray }
  if data.length < length then throw .cutShort

def fixedLiterals : Code :=
  .ofLengths (List.replicate 144 8 ++ List.replicate 112 9 ++ List.replicate 24 7 ++
    List.replicate 8 8)

def fixedDistances : Code := .ofLengths (List.replicate 32 5)

def lengthOrder : List Nat := [16, 17, 18, 0, 8, 7, 9, 6, 10, 5, 11, 4, 12, 3, 13, 2, 14, 1, 15]

def readLengths (code : Code) (total : Nat) : (fuel : Nat) → List Nat → Reading (List Nat)
  | 0, _ => throw .corrupt
  | fuel + 1, lengths =>
    if lengths.length = total then pure lengths.reverse
    else if total < lengths.length then throw .corrupt
    else do
      let symbol ← code.read
      if symbol < 16 then readLengths code total fuel (symbol :: lengths)
      else if symbol = 16 then
        match lengths with
        | [] => throw .corrupt
        | last :: _ =>
          let times := 3 + (← bits 2)
          readLengths code total fuel (List.replicate times last ++ lengths)
      else if symbol = 17 then
        let times := 3 + (← bits 3)
        readLengths code total fuel (List.replicate times 0 ++ lengths)
      else
        let times := 11 + (← bits 7)
        readLengths code total fuel (List.replicate times 0 ++ lengths)

def readTriples : (n : Nat) → Reading (List Nat)
  | 0 => pure []
  | n + 1 => do
    let first ← bits 3
    let others ← readTriples n
    pure (first :: others)

def readCodes : Reading (Code × Code) := do
  let literalCount := 257 + (← bits 5)
  let distanceCount := 1 + (← bits 5)
  let orderCount := 4 + (← bits 4)
  if 286 < literalCount ∨ 30 < distanceCount then throw .corrupt
  let given := lengthOrder.zip (← readTriples orderCount)
  let lengthCode := Code.ofLengths ((List.range 19).map (fun i => (given.lookup i).getD 0))
  if !lengthCode.isComplete then throw .corrupt
  let total := literalCount + distanceCount
  let lengths ← readLengths lengthCode total (total + 1) []
  let literals := Code.ofLengths (lengths.take literalCount)
  let distances := Code.ofLengths (lengths.drop literalCount)
  if !literals.isUsable || !distances.isUsable then throw .corrupt
  pure (literals, distances)

def blocks : (fuel : Nat) → Reading Unit
  | 0 => throw .corrupt
  | fuel + 1 => do
    let isLast ← bits 1
    match ← bits 2 with
    | 0 => storedBlock
    | 1 => symbols fixedLiterals fixedDistances fuel
    | 2 =>
      let (literals, distances) ← readCodes
      symbols literals distances fuel
    | _ => throw .corrupt
    if isLast = 0 then blocks fuel

end Diskette.Zip.Inflate

namespace Diskette.Zip

/-- The data in a deflated stream. A block takes some bits, so there are no more blocks than
bits. -/
def inflate (stream : Bytes) : Except Inflate.Stop Bytes := do
  let fuel := 8 * stream.length + 1
  let (_, s) ← (Inflate.blocks fuel).run { held := 0, count := 0, input := stream, output := #[] }
  .ok s.output.toList

end Diskette.Zip
