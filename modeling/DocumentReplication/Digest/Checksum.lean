import DocumentReplication.Bytes
import DocumentReplication.Bytes.LittleEndian

/-!
The checksum of frames and the hash that routes. The 32-bit cyclic redundancy check has the reflected
polynomial 0xEDB88320. The 64-bit XXH3 hash has seed 0 and the default secret; four schemes serve four
ranges of length: up to 16 octets, up to 128, up to 240, and stripes of 64 octets above that, which
eight lanes absorb one after another.
-/

namespace DocumentReplication.Crc32

def shift (register : UInt32) : UInt32 :=
  if register &&& 1 = 1 then (register >>> 1) ^^^ 0xEDB88320 else register >>> 1

def absorb (register : UInt32) (byte : UInt8) : UInt32 :=
  Nat.repeat shift 8 (register ^^^ byte.toUInt32)

def run (register : UInt32) (bytes : Bytes) : UInt32 :=
  bytes.foldl absorb register

def checksum (bytes : Bytes) : UInt32 :=
  run 0xFFFFFFFF bytes ^^^ 0xFFFFFFFF

theorem run_append (register : UInt32) (first last : Bytes) :
    run register (first ++ last) = run (run register first) last := by
  simp [run]

end DocumentReplication.Crc32

namespace DocumentReplication.Xxh3

def secret : Bytes :=
  [0xb8, 0xfe, 0x6c, 0x39, 0x23, 0xa4, 0x4b, 0xbe, 0x7c, 0x01, 0x81, 0x2c, 0xf7, 0x21, 0xad, 0x1c,
   0xde, 0xd4, 0x6d, 0xe9, 0x83, 0x90, 0x97, 0xdb, 0x72, 0x40, 0xa4, 0xa4, 0xb7, 0xb3, 0x67, 0x1f,
   0xcb, 0x79, 0xe6, 0x4e, 0xcc, 0xc0, 0xe5, 0x78, 0x82, 0x5a, 0xd0, 0x7d, 0xcc, 0xff, 0x72, 0x21,
   0xb8, 0x08, 0x46, 0x74, 0xf7, 0x43, 0x24, 0x8e, 0xe0, 0x35, 0x90, 0xe6, 0x81, 0x3a, 0x26, 0x4c,
   0x3c, 0x28, 0x52, 0xbb, 0x91, 0xc3, 0x00, 0xcb, 0x88, 0xd0, 0x65, 0x8b, 0x1b, 0x53, 0x2e, 0xa3,
   0x71, 0x64, 0x48, 0x97, 0xa2, 0x0d, 0xf9, 0x4e, 0x38, 0x19, 0xef, 0x46, 0xa9, 0xde, 0xac, 0xd8,
   0xa8, 0xfa, 0x76, 0x3f, 0xe3, 0x9c, 0x34, 0x3f, 0xf9, 0xdc, 0xbb, 0xc7, 0xc7, 0x0b, 0x4f, 0x1d,
   0x8a, 0x51, 0xe0, 0x4b, 0xcd, 0xb4, 0x59, 0x31, 0xc8, 0x9f, 0x7e, 0xc9, 0xd9, 0x78, 0x73, 0x64,
   0xea, 0xc5, 0xac, 0x83, 0x34, 0xd3, 0xeb, 0xc3, 0xc5, 0x81, 0xa0, 0xff, 0xfa, 0x13, 0x63, 0xeb,
   0x17, 0x0d, 0xdd, 0x51, 0xb7, 0xf0, 0xda, 0x49, 0xd3, 0x16, 0x55, 0x26, 0x29, 0xd4, 0x68, 0x9e,
   0x2b, 0x16, 0xbe, 0x58, 0x7d, 0x47, 0xa1, 0xfc, 0x8f, 0xf8, 0xb8, 0xd1, 0x7a, 0xd0, 0x31, 0xce,
   0x45, 0xcb, 0x3a, 0x8f, 0x95, 0x16, 0x04, 0x28, 0xaf, 0xd7, 0xfb, 0xca, 0xbb, 0x4b, 0x40, 0x7e]

def prime32a : UInt64 := 0x9E3779B1
def prime32b : UInt64 := 0x85EBCA77
def prime32c : UInt64 := 0xC2B2AE3D
def prime64a : UInt64 := 0x9E3779B185EBCA87
def prime64b : UInt64 := 0xC2B2AE3D27D4EB4F
def prime64c : UInt64 := 0x165667B19E3779F9
def prime64d : UInt64 := 0x85EBCA77C2B2AE63
def prime64e : UInt64 := 0x27D4EB2F165667C5
def primeMixA : UInt64 := 0x165667919E3779F9
def primeMixB : UInt64 := 0x9FB21C651E98DF25

def wordAt (width : Nat) (bytes : Bytes) (offset : Nat) : UInt64 :=
  UInt64.ofNat (LittleEndian.toNat ((bytes.drop offset).take width))

def at64 (bytes : Bytes) (offset : Nat) : UInt64 := wordAt 8 bytes offset

def at32 (bytes : Bytes) (offset : Nat) : UInt64 := wordAt 4 bytes offset

def rotate (amount : UInt64) (word : UInt64) : UInt64 :=
  (word <<< amount) ||| (word >>> (64 - amount))

def swapBytes (word : UInt64) : UInt64 :=
  UInt64.ofNat (LittleEndian.toNat (LittleEndian.word64 word).reverse)

def multiplyFold (x y : UInt64) : UInt64 :=
  let product := x.toNat * y.toNat
  UInt64.ofNat (product % UInt64.size) ^^^ UInt64.ofNat (product / UInt64.size)

def avalanche (hash : UInt64) : UInt64 :=
  let hash := (hash ^^^ (hash >>> 37)) * primeMixA
  hash ^^^ (hash >>> 32)

def strongAvalanche (hash : UInt64) : UInt64 :=
  let hash := (hash ^^^ (hash >>> 33)) * prime64b
  let hash := (hash ^^^ (hash >>> 29)) * prime64c
  hash ^^^ (hash >>> 32)

def upTo3 (bytes : Bytes) (length : Nat) : UInt64 :=
  let first := wordAt 1 bytes 0
  let middle := wordAt 1 bytes (length / 2)
  let last := wordAt 1 bytes (length - 1)
  let combined := (first <<< 16) ||| (middle <<< 24) ||| last ||| (UInt64.ofNat length <<< 8)
  strongAvalanche (combined ^^^ (at32 secret 0 ^^^ at32 secret 4))

def upTo8 (bytes : Bytes) (length : Nat) : UInt64 :=
  let input := at32 bytes (length - 4) + (at32 bytes 0 <<< 32)
  let keyed := input ^^^ (at64 secret 8 ^^^ at64 secret 16)
  let hash := (keyed ^^^ rotate 49 keyed ^^^ rotate 24 keyed) * primeMixB
  let hash := (hash ^^^ ((hash >>> 35) + UInt64.ofNat length)) * primeMixB
  hash ^^^ (hash >>> 28)

def upTo16 (bytes : Bytes) (length : Nat) : UInt64 :=
  let low := at64 bytes 0 ^^^ (at64 secret 24 ^^^ at64 secret 32)
  let high := at64 bytes (length - 8) ^^^ (at64 secret 40 ^^^ at64 secret 48)
  avalanche (UInt64.ofNat length + swapBytes low + high + multiplyFold low high)

def mix (bytes : Bytes) (offset : Nat) (key : Nat) : UInt64 :=
  multiplyFold (at64 bytes offset ^^^ at64 secret key)
    (at64 bytes (offset + 8) ^^^ at64 secret (key + 8))

/-- Pairs of segments, one from each end, meeting in the middle. -/
def upTo128 (bytes : Bytes) (length : Nat) : UInt64 :=
  let pairs := (length - 1) / 32 + 1
  avalanche ((List.range pairs).foldl
    (fun hash i => hash + mix bytes (16 * i) (32 * i) + mix bytes (length - 16 * (i + 1)) (32 * i + 16))
    (UInt64.ofNat length * prime64a))

def upTo240 (bytes : Bytes) (length : Nat) : UInt64 :=
  let first := (List.range 8).foldl (fun hash i => hash + mix bytes (16 * i) (16 * i))
    (UInt64.ofNat length * prime64a)
  let rest := (List.range (length / 16 - 8)).foldl
    (fun hash i => hash + mix bytes (16 * (i + 8)) (16 * i + 3)) (avalanche first)
  avalanche (rest + mix bytes (length - 16) 119)

def initialLanes : List UInt64 :=
  [prime32c, prime64a, prime64b, prime64c, prime64d, prime32b, prime64e, prime32a]

def eightWords (bytes : Bytes) (offset : Nat) : List UInt64 :=
  let bytes := bytes.drop offset
  (List.range 8).map fun i => at64 bytes (8 * i)

def swapNeighbours : List UInt64 → List UInt64
  | x :: y :: rest => y :: x :: swapNeighbours rest
  | rest => rest

def absorb (lanes data : List UInt64) (key : Nat) : List UInt64 :=
  let products := (data.zip (eightWords secret key)).map fun (word, mask) =>
    let keyed := word ^^^ mask
    (keyed &&& (0xFFFFFFFF : UInt64)) * (keyed >>> 32)
  ((lanes.zip (swapNeighbours data)).zip products).map fun ((lane, word), product) =>
    lane + word + product

def scramble (lanes : List UInt64) : List UInt64 :=
  (lanes.zip (eightWords secret 128)).map fun (lane, mask) =>
    ((lane ^^^ (lane >>> 47)) ^^^ mask) * prime32a

def mergeLanes (key : Nat) : List UInt64 → UInt64
  | x :: y :: rest =>
    multiplyFold (x ^^^ at64 secret key) (y ^^^ at64 secret (key + 8)) + mergeLanes (key + 16) rest
  | _ => 0

/-- Stripes follow each other; every sixteenth is followed by a scramble. -/
def absorbStripes : (count : Nat) → (index : Nat) → Bytes → List UInt64 → List UInt64
  | 0, _, _, lanes => lanes
  | count + 1, index, bytes, lanes =>
    let lanes := absorb lanes (eightWords bytes 0) (8 * (index % 16))
    absorbStripes count (index + 1) (bytes.drop 64)
      (if index % 16 = 15 then scramble lanes else lanes)

def above240 (bytes : Bytes) (length : Nat) : UInt64 :=
  let lanes := absorbStripes ((length - 1) / 64) 0 bytes initialLanes
  let lanes := absorb lanes (eightWords bytes (length - 64)) 121
  avalanche (UInt64.ofNat length * prime64a + mergeLanes 11 lanes)

def hash (bytes : Bytes) : UInt64 :=
  let length := bytes.length
  if length = 0 then strongAvalanche (at64 secret 56 ^^^ at64 secret 64)
  else if length ≤ 3 then upTo3 bytes length
  else if length ≤ 8 then upTo8 bytes length
  else if length ≤ 16 then upTo16 bytes length
  else if length ≤ 128 then upTo128 bytes length
  else if length ≤ 240 then upTo240 bytes length
  else above240 bytes length

end DocumentReplication.Xxh3
