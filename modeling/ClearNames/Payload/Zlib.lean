import ClearNames.Payload.Bits

/-! Zlib data: writing in stored blocks, and reading of blocks of every kind. -/

set_option autoImplicit false

namespace ClearNames.Zlib

def checksum (bytes : List UInt8) : Nat :=
  let (low, high) := bytes.foldl
    (fun (low, high) byte =>
      let low := (low + byte.toNat) % 65521
      (low, (high + low) % 65521)) (1, 0)
  high * 0x10000 + low

def bytesLowFirst : (count value : Nat) → List UInt8
  | 0, _ => []
  | count + 1, value => UInt8.ofNat value :: bytesLowFirst count (value / 256)

def bytesHighFirst (count value : Nat) : List UInt8 := (bytesLowFirst count value).reverse

def blockLimit : Nat := 65535

def storedBlock (last : Bool) (bytes : List UInt8) : List UInt8 :=
  (if last then 1 else 0) :: bytesLowFirst 2 bytes.length ++ bytesLowFirst 2 (65535 - bytes.length) ++ bytes

/-- Stored blocks of all bytes, with a last block that is empty only if there are none. -/
def storedBlocks (bytes : List UInt8) : List UInt8 :=
  if bytes.length ≤ blockLimit then storedBlock true bytes
  else storedBlock false (bytes.take blockLimit) ++ storedBlocks (bytes.drop blockLimit)
termination_by bytes.length
decreasing_by simp [blockLimit] at *; omega

def compress (bytes : List UInt8) : List UInt8 :=
  0x78 :: 0x01 :: storedBlocks bytes ++ bytesHighFirst 4 (checksum bytes)

def fixedLengths : List Nat :=
  List.replicate 144 8 ++ List.replicate 112 9 ++ List.replicate 24 7 ++ List.replicate 8 8

def fixedDistanceLengths : List Nat := List.replicate 30 5 ++ List.replicate 2 5

/-- The least match length of each length symbol, and the number of extra bits. -/
def lengthBases : List (Nat × Nat) := [
  (3, 0), (4, 0), (5, 0), (6, 0), (7, 0), (8, 0), (9, 0), (10, 0), (11, 1), (13, 1), (15, 1), (17, 1),
  (19, 2), (23, 2), (27, 2), (31, 2), (35, 3), (43, 3), (51, 3), (59, 3), (67, 4), (83, 4), (99, 4),
  (115, 4), (131, 5), (163, 5), (195, 5), (227, 5), (258, 0)]

def distanceBases : List (Nat × Nat) := [
  (1, 0), (2, 0), (3, 0), (4, 0), (5, 1), (7, 1), (9, 2), (13, 2), (17, 3), (25, 3), (33, 4), (49, 4),
  (65, 5), (97, 5), (129, 6), (193, 6), (257, 7), (385, 7), (513, 8), (769, 8), (1025, 9), (1537, 9),
  (2049, 10), (3073, 10), (4097, 11), (6145, 11), (8193, 12), (12289, 12), (16385, 13), (24577, 13)]

def takeExtra (bases : List (Nat × Nat)) (index : Nat) (bits : List Bool) : Option (Nat × List Bool) := do
  let (base, extra) ← bases[index]?
  let (more, bits) ← Bits.take? extra bits
  return (base + more, bits)

def copyBack (distance : Nat) : (count : Nat) → Array UInt8 → Array UInt8
  | 0, out => out
  | count + 1, out => copyBack distance count (out.push (out[out.size - distance]?.getD 0))

structure BlockCodes where
  literals : PrefixCode
  distances : PrefixCode

/-- The symbols of a block up to its end; each takes at least one bit. -/
def readSymbols (codes : BlockCodes) : (fuel : Nat) → List Bool → Array UInt8 →
    Option (List Bool × Array UInt8)
  | 0, _, _ => none
  | fuel + 1, bits, out => do
    let (symbol, bits) ← codes.literals.read? bits
    if symbol < 256 then readSymbols codes fuel bits (out.push (UInt8.ofNat symbol))
    else if symbol = 256 then return (bits, out)
    else
      let (length, bits) ← takeExtra lengthBases (symbol - 257) bits
      let (distanceSymbol, bits) ← codes.distances.read? bits
      let (distance, bits) ← takeExtra distanceBases distanceSymbol bits
      if out.size < distance then none
      else readSymbols codes fuel bits (copyBack distance length out)

def takeBytes : (count : Nat) → List Bool → Array UInt8 → Option (List Bool × Array UInt8)
  | 0, bits, out => some (bits, out)
  | count + 1, bits, out => do
    let (byte, bits) ← Bits.take? 8 bits
    takeBytes count bits (out.push (UInt8.ofNat byte))

def align (bits : List Bool) : List Bool := bits.drop (bits.length % 8)

def readStored (bits : List Bool) (out : Array UInt8) : Option (List Bool × Array UInt8) := do
  let (count, bits) ← Bits.take? 16 (align bits)
  let (complement, bits) ← Bits.take? 16 bits
  if count + complement = 65535 then takeBytes count bits out else none

def lengthOrder : List Nat := [16, 17, 18, 0, 8, 7, 9, 6, 10, 5, 11, 4, 12, 3, 13, 2, 14, 1, 15]

def takeTriples : (count : Nat) → List Bool → Option (List Nat × List Bool)
  | 0, bits => some ([], bits)
  | count + 1, bits => do
    let (first, bits) ← Bits.take? 3 bits
    let (rest, bits) ← takeTriples count bits
    return (first :: rest, bits)

def readLengths (code : PrefixCode) (wanted : Nat) : (fuel : Nat) → List Bool → List Nat →
    Option (List Nat × List Bool)
  | 0, _, _ => none
  | fuel + 1, bits, lengths =>
    if wanted < lengths.length then none
    else if wanted = lengths.length then some (lengths, bits)
    else do
      let (symbol, bits) ← code.read? bits
      if symbol < 16 then readLengths code wanted fuel bits (lengths ++ [symbol])
      else if symbol = 16 then
        let last ← lengths.getLast?
        let (more, bits) ← Bits.take? 2 bits
        readLengths code wanted fuel bits (lengths ++ List.replicate (3 + more) last)
      else if symbol = 17 then
        let (more, bits) ← Bits.take? 3 bits
        readLengths code wanted fuel bits (lengths ++ List.replicate (3 + more) 0)
      else
        let (more, bits) ← Bits.take? 7 bits
        readLengths code wanted fuel bits (lengths ++ List.replicate (11 + more) 0)

def readCodes (bits : List Bool) : Option (BlockCodes × List Bool) := do
  let (literals, bits) ← Bits.take? 5 bits
  let (distances, bits) ← Bits.take? 5 bits
  let (orders, bits) ← Bits.take? 4 bits
  let literals := literals + 257
  let distances := distances + 1
  if 286 < literals || 30 < distances then none
  let (triples, bits) ← takeTriples (orders + 4) bits
  let given := lengthOrder.zip triples
  let orderLengths := (List.range 19).map fun symbol => (given.lookup symbol).getD 0
  if !PrefixCode.fits false orderLengths then none
  let (lengths, bits) ← readLengths (.ofLengths orderLengths) (literals + distances) (literals + distances + 1)
    bits []
  let literalLengths := lengths.take literals
  let distanceLengths := lengths.drop literals
  if literalLengths[256]?.getD 0 = 0 then none
  if !(PrefixCode.fits true literalLengths && PrefixCode.fits true distanceLengths) then none
  return (⟨.ofLengths literalLengths, .ofLengths distanceLengths⟩, bits)

def fixedCodes : BlockCodes := ⟨.ofLengths fixedLengths, .ofLengths fixedDistanceLengths⟩

def readBlocks : (fuel : Nat) → List Bool → Array UInt8 → Option (List Bool × Array UInt8)
  | 0, _, _ => none
  | fuel + 1, bits, out => do
    let (last, bits) ← Bits.take? 1 bits
    let (kind, bits) ← Bits.take? 2 bits
    let (bits, out) ← match kind with
      | 0 => readStored bits out
      | 1 => readSymbols fixedCodes (bits.length + 1) bits out
      | 2 => do
        let (codes, bits) ← readCodes bits
        readSymbols codes (bits.length + 1) bits out
      | _ => none
    if last = 1 then return (bits, out) else readBlocks fuel bits out

def isHeader (first second : UInt8) : Bool :=
  (first.toNat * 256 + second.toNat) % 31 = 0 && first.toNat % 16 = 8 && first.toNat / 16 ≤ 7 &&
    second.toNat / 32 % 2 = 0

/-- The bytes that zlib data stands for, if it is whole and its checksum is
right; what follows the checksum is not looked at. -/
def decompress? : List UInt8 → Option (List UInt8)
  | first :: second :: rest => do
    if !isHeader first second then none
    let bits := Bits.ofBytes rest
    let (bits, out) ← readBlocks (bits.length + 1) bits #[]
    let (_, sum) ← takeBytes 4 (align bits) #[]
    if sum.toList = bytesHighFirst 4 (checksum out.toList) then return out.toList else none
  | _ => none

end ClearNames.Zlib
