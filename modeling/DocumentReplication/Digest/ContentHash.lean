import DocumentReplication.Bytes

/-!
Payloads are named by the base64 text of their SHA-256 digest: base64 with the standard alphabet and
padding, SHA-256 as in FIPS 180-4. The message schedule is kept newest word first, so that its
recurrence always looks at the same places.
-/

namespace DocumentReplication.Base64

def alphabet : List Char :=
  "ABCDEFGHIJKLMNOPQRSTUVWXYZabcdefghijklmnopqrstuvwxyz0123456789+/".toList

def symbol (bits : Nat) : Char :=
  alphabet.getD (bits % 64) '='

def encode : Bytes → List Char
  | a :: b :: c :: rest =>
    let bits := (a.toNat * 256 + b.toNat) * 256 + c.toNat
    symbol (bits / 262144) :: symbol (bits / 4096) :: symbol (bits / 64) :: symbol bits :: encode rest
  | [a, b] =>
    let bits := (a.toNat * 256 + b.toNat) * 4
    [symbol (bits / 4096), symbol (bits / 64), symbol bits, '=']
  | [a] =>
    let bits := a.toNat * 16
    [symbol (bits / 64), symbol bits, '=', '=']
  | [] => []

end DocumentReplication.Base64

namespace DocumentReplication.Sha256

def rotate (amount : UInt32) (word : UInt32) : UInt32 :=
  (word >>> amount) ||| (word <<< (32 - amount))

/-- The first 32 bits of the fractional parts of the cube roots of the first 64 primes. -/
def constants : List UInt32 :=
  [0x428a2f98, 0x71374491, 0xb5c0fbcf, 0xe9b5dba5, 0x3956c25b, 0x59f111f1, 0x923f82a4, 0xab1c5ed5,
   0xd807aa98, 0x12835b01, 0x243185be, 0x550c7dc3, 0x72be5d74, 0x80deb1fe, 0x9bdc06a7, 0xc19bf174,
   0xe49b69c1, 0xefbe4786, 0x0fc19dc6, 0x240ca1cc, 0x2de92c6f, 0x4a7484aa, 0x5cb0a9dc, 0x76f988da,
   0x983e5152, 0xa831c66d, 0xb00327c8, 0xbf597fc7, 0xc6e00bf3, 0xd5a79147, 0x06ca6351, 0x14292967,
   0x27b70a85, 0x2e1b2138, 0x4d2c6dfc, 0x53380d13, 0x650a7354, 0x766a0abb, 0x81c2c92e, 0x92722c85,
   0xa2bfe8a1, 0xa81a664b, 0xc24b8b70, 0xc76c51a3, 0xd192e819, 0xd6990624, 0xf40e3585, 0x106aa070,
   0x19a4c116, 0x1e376c08, 0x2748774c, 0x34b0bcb5, 0x391c0cb3, 0x4ed8aa4a, 0x5b9cca4f, 0x682e6ff3,
   0x748f82ee, 0x78a5636f, 0x84c87814, 0x8cc70208, 0x90befffa, 0xa4506ceb, 0xbef9a3f7, 0xc67178f2]

structure State where
  (a b c d e f g h : UInt32)

/-- The first 32 bits of the fractional parts of the square roots of the first 8 primes. -/
def State.start : State :=
  ⟨0x6a09e667, 0xbb67ae85, 0x3c6ef372, 0xa54ff53a, 0x510e527f, 0x9b05688c, 0x1f83d9ab, 0x5be0cd19⟩

def State.add (s t : State) : State :=
  ⟨s.a + t.a, s.b + t.b, s.c + t.c, s.d + t.d, s.e + t.e, s.f + t.f, s.g + t.g, s.h + t.h⟩

def State.words (s : State) : List UInt32 :=
  [s.a, s.b, s.c, s.d, s.e, s.f, s.g, s.h]

def State.round (s : State) (step : UInt32 × UInt32) : State :=
  let choice := (s.e &&& s.f) ^^^ ((~~~ s.e) &&& s.g)
  let majority := (s.a &&& s.b) ^^^ (s.a &&& s.c) ^^^ (s.b &&& s.c)
  let first := s.h + (rotate 6 s.e ^^^ rotate 11 s.e ^^^ rotate 25 s.e) + choice + step.1 + step.2
  let second := (rotate 2 s.a ^^^ rotate 13 s.a ^^^ rotate 22 s.a) + majority
  ⟨first + second, s.a, s.b, s.c, s.d + first, s.e, s.f, s.g⟩

def extend (words : List UInt32) : List UInt32 :=
  let near := words.getD 1 0
  let far := words.getD 14 0
  ((rotate 17 near ^^^ rotate 19 near ^^^ (near >>> 10)) + words.getD 6 0 +
    (rotate 7 far ^^^ rotate 18 far ^^^ (far >>> 3)) + words.getD 15 0) :: words

def schedule (block : List UInt32) : List UInt32 :=
  (Nat.repeat extend 48 block.reverse).reverse

def compress (s : State) (block : List UInt32) : State :=
  s.add ((constants.zip (schedule block)).foldl State.round s)

def bigEndian (word : UInt32) : Bytes :=
  [(word >>> 24).toUInt8, (word >>> 16).toUInt8, (word >>> 8).toUInt8, word.toUInt8]

/-- A one bit, zeros up to eight octets before the end of a block, and the length in bits. -/
def padding (length : Nat) : Bytes :=
  0x80 :: List.replicate ((119 - length % 64) % 64) 0 ++
    bigEndian (UInt32.ofNat (length * 8 / UInt32.size)) ++ bigEndian (UInt32.ofNat (length * 8))

def words : Bytes → List UInt32
  | a :: b :: c :: d :: rest =>
    ((a.toUInt32 <<< 24) ||| (b.toUInt32 <<< 16) ||| (c.toUInt32 <<< 8) ||| d.toUInt32) :: words rest
  | _ => []

def absorb (s : State) (words : List UInt32) : State :=
  if words.isEmpty then s
  else absorb (compress s (words.take 16)) (words.drop 16)
termination_by words.length
decreasing_by
  rename_i some
  have : words ≠ [] := by simpa using some
  have := List.length_pos_iff.mpr this
  simp only [List.length_drop]
  omega

def digest (message : Bytes) : Bytes :=
  (absorb .start (words (message ++ padding message.length))).words.flatMap bigEndian

end DocumentReplication.Sha256

namespace DocumentReplication

def contentHash (payload : Bytes) : String :=
  String.ofList (Base64.encode (Sha256.digest payload))

end DocumentReplication
