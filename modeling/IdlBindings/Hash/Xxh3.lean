/-!
# The 128-bit XXH3 digest

XXH3 with the default secret and no seed. Short inputs are mixed in one piece, in a way that depends
on their length; inputs above 240 bytes go through eight lanes, 64 bytes at a time, which are mixed
again after every sixteenth stripe.

Words are read in little-endian order, and arithmetic on them wraps around.

## Main definitions

* `Digest`: the two halves of a digest
* `xxh3`: the digest of bytes
-/
namespace IdlBindings

/-- A digest of 128 bits in two halves. -/
structure Digest where
  low : UInt64
  high : UInt64
deriving DecidableEq, Repr

namespace Xxh3

def prime32a : UInt64 := 0x9E3779B1
def prime32b : UInt64 := 0x85EBCA77
def prime32c : UInt64 := 0xC2B2AE3D
def prime64a : UInt64 := 0x9E3779B185EBCA87
def prime64b : UInt64 := 0xC2B2AE3D27D4EB4F
def prime64c : UInt64 := 0x165667B19E3779F9
def prime64d : UInt64 := 0x85EBCA77C2B2AE63
def prime64e : UInt64 := 0x27D4EB2F165667C5

/-- The default secret: 192 bytes. -/
def secret : Array UInt8 := #[
  0xb8, 0xfe, 0x6c, 0x39, 0x23, 0xa4, 0x4b, 0xbe, 0x7c, 0x01, 0x81, 0x2c, 0xf7, 0x21, 0xad, 0x1c,
  0xde, 0xd4, 0x6d, 0xe9, 0x83, 0x90, 0x97, 0xdb, 0x72, 0x40, 0xa4, 0xa4, 0xb7, 0xb3, 0x67, 0x1f,
  0xcb, 0x79, 0xe6, 0x4e, 0xcc, 0xc0, 0xe5, 0x78, 0x82, 0x5a, 0xd0, 0x7d, 0xcc, 0xff, 0x72, 0x21,
  0xb8, 0x08, 0x46, 0x74, 0xf7, 0x43, 0x24, 0x8e, 0xe0, 0x35, 0x90, 0xe6, 0x81, 0x3a, 0x26, 0x4c,
  0x3c, 0x28, 0x52, 0xbb, 0x91, 0xc3, 0x00, 0xcb, 0x88, 0xd0, 0x65, 0x8b, 0x1b, 0x53, 0x2e, 0xa3,
  0x71, 0x64, 0x48, 0x97, 0xa2, 0x0d, 0xf9, 0x4e, 0x38, 0x19, 0xef, 0x46, 0xa9, 0xde, 0xac, 0xd8,
  0xa8, 0xfa, 0x76, 0x3f, 0xe3, 0x9c, 0x34, 0x3f, 0xf9, 0xdc, 0xbb, 0xc7, 0xc7, 0x0b, 0x4f, 0x1d,
  0x8a, 0x51, 0xe0, 0x4b, 0xcd, 0xb4, 0x59, 0x31, 0xc8, 0x9f, 0x7e, 0xc9, 0xd9, 0x78, 0x73, 0x64,
  0xea, 0xc5, 0xac, 0x83, 0x34, 0xd3, 0xeb, 0xc3, 0xc5, 0x81, 0xa0, 0xff, 0xfa, 0x13, 0x63, 0xeb,
  0x17, 0x0d, 0xdd, 0x51, 0xb7, 0xf0, 0xda, 0x49, 0xd3, 0x16, 0x55, 0x26, 0x29, 0xd4, 0x68, 0x9e,
  0x2b, 0x16, 0xbe, 0x58, 0x7d, 0x47, 0xa1, 0xfc, 0x8f, 0xf8, 0xb8, 0xd1, 0x7a, 0xd0, 0x31, 0xce,
  0x45, 0xcb, 0x3a, 0x8f, 0x95, 0x16, 0x04, 0x28, 0xaf, 0xd7, 0xfb, 0xca, 0xbb, 0x4b, 0x40, 0x7e]

/-! ## Words -/

def byteAt (bytes : Array UInt8) (i : Nat) : UInt64 := (bytes[i]?.getD 0).toUInt64

/-- The word of `n` bytes at an offset. -/
def wordAt (bytes : Array UInt8) (offset : Nat) : Nat → UInt64
  | 0 => 0
  | n + 1 => byteAt bytes offset ||| (wordAt bytes (offset + 1) n <<< 8)

def read32 (bytes : Array UInt8) (offset : Nat) : UInt64 := wordAt bytes offset 4

def read64 (bytes : Array UInt8) (offset : Nat) : UInt64 := wordAt bytes offset 8

/-- Reverses the lowest `n` bytes of a word. -/
def swapBytes (w : UInt64) : Nat → UInt64
  | 0 => 0
  | n + 1 => ((w &&& 0xFF) <<< (8 * n).toUInt64) ||| swapBytes (w >>> 8) n

/-- Rotates the lowest 32 bits of a word to the left. -/
def rotate32 (w : UInt64) (n : UInt64) : UInt64 := ((w <<< n) ||| (w >>> (32 - n))) &&& 0xFFFFFFFF

/-- The product of two words in 128 bits. -/
def multiply (a b : UInt64) : Digest :=
  let product := a.toNat * b.toNat
  ⟨product.toUInt64, (product >>> 64).toUInt64⟩

/-- The product of two words, with its halves put over each other. -/
def foldProduct (a b : UInt64) : UInt64 := (multiply a b).low ^^^ (multiply a b).high

def xorShift (w n : UInt64) : UInt64 := w ^^^ (w >>> n)

/-- The last mixing step of most lengths. -/
def avalanche (h : UInt64) : UInt64 := xorShift (xorShift h 37 * 0x165667919E3779F9) 32

/-- The last mixing step of inputs of at most three bytes. -/
def avalancheShort (h : UInt64) : UInt64 :=
  xorShift (xorShift (xorShift h 33 * prime64b) 29 * prime64c) 32

/-! ## Up to sixteen bytes -/

def ofEmpty : Digest :=
  ⟨avalancheShort (read64 secret 64 ^^^ read64 secret 72),
    avalancheShort (read64 secret 80 ^^^ read64 secret 88)⟩

def ofUpTo3 (bytes : Array UInt8) : Digest :=
  let n := bytes.size
  let low := (byteAt bytes 0 <<< 16) ||| (byteAt bytes (n / 2) <<< 24) ||| byteAt bytes (n - 1) |||
    (n.toUInt64 <<< 8)
  let high := rotate32 (swapBytes low 4) 13
  ⟨avalancheShort (low ^^^ (read32 secret 0 ^^^ read32 secret 4)),
    avalancheShort (high ^^^ (read32 secret 8 ^^^ read32 secret 12))⟩

def ofUpTo8 (bytes : Array UInt8) : Digest :=
  let n := bytes.size
  let word := read32 bytes 0 + (read32 bytes (n - 4) <<< 32)
  let keyed := word ^^^ (read64 secret 16 ^^^ read64 secret 24)
  let product := multiply keyed (prime64a + (n.toUInt64 <<< 2))
  let high := product.high + (product.low <<< 1)
  let low := product.low ^^^ (high >>> 3)
  ⟨xorShift (xorShift low 35 * 0x9FB21C651E98DF25) 28, avalanche high⟩

def ofUpTo16 (bytes : Array UInt8) : Digest :=
  let n := bytes.size
  let first := read64 bytes 0
  let last := read64 bytes (n - 8)
  let product := multiply (first ^^^ last ^^^ (read64 secret 32 ^^^ read64 secret 40)) prime64a
  let keyed := last ^^^ (read64 secret 48 ^^^ read64 secret 56)
  let high := product.high + (keyed + (keyed &&& 0xFFFFFFFF) * (prime32b - 1))
  let low := (product.low + ((n - 1).toUInt64 <<< 54)) ^^^ swapBytes high 8
  let mixed := multiply low prime64b
  ⟨avalanche mixed.low, avalanche (mixed.high + high * prime64b)⟩

/-! ## Up to 240 bytes -/

/-- Mixes 16 bytes with 16 bytes of the secret. -/
def mix16 (bytes : Array UInt8) (offset key : Nat) : UInt64 :=
  foldProduct (read64 bytes offset ^^^ read64 secret key)
    (read64 bytes (offset + 8) ^^^ read64 secret (key + 8))

/-- Mixes two pieces of 16 bytes into both halves. -/
def mix32 (bytes : Array UInt8) (acc : Digest) (first second key : Nat) : Digest :=
  ⟨(acc.low + mix16 bytes first key) ^^^ (read64 bytes second + read64 bytes (second + 8)),
    (acc.high + mix16 bytes second (key + 16)) ^^^ (read64 bytes first + read64 bytes (first + 8))⟩

def finish (n : Nat) (acc : Digest) : Digest :=
  ⟨avalanche (acc.low + acc.high),
    0 - avalanche (acc.low * prime64a + acc.high * prime64d + n.toUInt64 * prime64b)⟩

/-- Pieces are taken from both ends, the inner ones first. -/
def ofUpTo128 (bytes : Array UInt8) : Digest :=
  let n := bytes.size
  let depths := (List.range ((n - 1) / 32 + 1)).reverse
  finish n (depths.foldl
    (fun acc i => mix32 bytes acc (16 * i) (n - 16 * (i + 1)) (32 * i)) ⟨n.toUInt64 * prime64a, 0⟩)

def ofUpTo240 (bytes : Array UInt8) : Digest :=
  let n := bytes.size
  let start : Digest := ⟨n.toUInt64 * prime64a, 0⟩
  let early := (List.range 4).foldl
    (fun acc i => mix32 bytes acc (32 * i) (32 * i + 16) (32 * i)) start
  let late := (List.range (n / 32 - 4)).foldl
    (fun acc i => mix32 bytes acc (128 + 32 * i) (144 + 32 * i) (3 + 32 * i))
    ⟨avalanche early.low, avalanche early.high⟩
  finish n (mix32 bytes late (n - 16) (n - 32) 103)

/-! ## Longer inputs -/

abbrev Lanes := Vector UInt64 8

def startLanes : Lanes :=
  #v[prime32c, prime64a, prime64b, prime64c, prime64d, prime32b, prime64e, prime32a]

/-- Takes 64 bytes into the lanes. The plain word goes to the neighbour of its lane. -/
def takeStripe (bytes : Array UInt8) (lanes : Lanes) (offset key : Nat) : Lanes :=
  Vector.ofFn fun (i : Fin 8) =>
    let keyed := read64 bytes (offset + 8 * i.val) ^^^ read64 secret (key + 8 * i.val)
    let low := keyed &&& 0xFFFFFFFF
    let high := keyed >>> 32
    lanes[i] + read64 bytes (offset + 8 * (i.val ^^^ 1)) + low * high

/-- Mixes the lanes with the end of the secret. -/
def scramble (lanes : Lanes) : Lanes :=
  Vector.ofFn fun (i : Fin 8) =>
    (xorShift lanes[i] 47 ^^^ read64 secret (128 + 8 * i.val)) * prime32a

/-- Mixes the lanes into one word. -/
def mergeLanes (lanes : Lanes) (key : Nat) (start : UInt64) : UInt64 :=
  avalanche (start +
    foldProduct (lanes[0] ^^^ read64 secret key) (lanes[1] ^^^ read64 secret (key + 8)) +
    foldProduct (lanes[2] ^^^ read64 secret (key + 16)) (lanes[3] ^^^ read64 secret (key + 24)) +
    foldProduct (lanes[4] ^^^ read64 secret (key + 32)) (lanes[5] ^^^ read64 secret (key + 40)) +
    foldProduct (lanes[6] ^^^ read64 secret (key + 48)) (lanes[7] ^^^ read64 secret (key + 56)))

/-- The last stripe ends with the input, so it overlaps the one before unless the length is a
multiple of 64. -/
def ofLong (bytes : Array UInt8) : Digest :=
  let n := bytes.size
  let whole := (List.range ((n - 1) / 64)).foldl
    (fun lanes i =>
      let taken := takeStripe bytes lanes (64 * i) (8 * (i % 16))
      if i % 16 = 15 then scramble taken else taken) startLanes
  let lanes := takeStripe bytes whole (n - 64) 121
  ⟨mergeLanes lanes 11 (n.toUInt64 * prime64a),
    mergeLanes lanes 117 (0xFFFFFFFFFFFFFFFF ^^^ (n.toUInt64 * prime64b))⟩

end Xxh3

/-- The digest of bytes. -/
def xxh3 (bytes : Array UInt8) : Digest :=
  if bytes.size = 0 then Xxh3.ofEmpty
  else if bytes.size ≤ 3 then Xxh3.ofUpTo3 bytes
  else if bytes.size ≤ 8 then Xxh3.ofUpTo8 bytes
  else if bytes.size ≤ 16 then Xxh3.ofUpTo16 bytes
  else if bytes.size ≤ 128 then Xxh3.ofUpTo128 bytes
  else if bytes.size ≤ 240 then Xxh3.ofUpTo240 bytes
  else Xxh3.ofLong bytes

end IdlBindings
