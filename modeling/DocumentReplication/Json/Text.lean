import DocumentReplication.Text.Encoding
import DocumentReplication.Text.Numeral

/-!
The texts of JSON documents as pieces: octets that stand for themselves, and UTF-16 units that an
escape gives.

How much of a text has to make sense depends on who reads it. Pieces stand for a text when no octet
is a control character, surrogates come in pairs and the result is UTF-8; they stand for plain
octets without these conditions, and a lone surrogate is then written like any other code point.
-/

namespace DocumentReplication.Json

open Bytes (ascii asciiText)

inductive Piece where
  | raw (value : UInt8)
  | unit (value : Nat)
deriving DecidableEq, Repr

namespace Piece

def letter? (value : Nat) : Option Char :=
  if value = 0x22 then some '"'
  else if value = 0x5c then some '\\'
  else if value = 8 then some 'b'
  else if value = 12 then some 'f'
  else if value = 10 then some 'n'
  else if value = 13 then some 'r'
  else if value = 9 then some 't'
  else none

def ofLetter? (letter : UInt8) : Option Nat :=
  if letter = ascii '"' ∨ letter = ascii '\\' ∨ letter = ascii '/' then some letter.toNat
  else if letter = ascii 'b' then some 8
  else if letter = ascii 'f' then some 12
  else if letter = ascii 'n' then some 10
  else if letter = ascii 'r' then some 13
  else if letter = ascii 't' then some 9
  else none

def hexadecimal (value : Nat) : List Char :=
  [value / 4096, value / 256 % 16, value / 16 % 16, value % 16].map Hexadecimal.digitChar

def ofHexadecimal? (digits : Bytes) : Option Nat :=
  digits.foldl (fun total digit => do
    let value ← Hexadecimal.digitValue? (Char.ofNat digit.toNat)
    return 16 * (← total) + value) (some 0)

def write : Piece → Bytes
  | raw value => [value]
  | unit value =>
    match letter? value with
    | some letter => asciiText ['\\', letter]
    | none => asciiText ('\\' :: 'u' :: hexadecimal value)

def ofChar (c : Char) : List Piece :=
  if c.toNat < 32 ∨ c = '"' ∨ c = '\\' then [unit c.toNat]
  else (Text.utf8 (String.singleton c)).map raw

def ofString (value : String) : List Piece :=
  value.toList.flatMap ofChar

def isHighSurrogate (value : Nat) : Bool := 0xD800 ≤ value && value ≤ 0xDBFF

def isLowSurrogate (value : Nat) : Bool := 0xDC00 ≤ value && value ≤ 0xDFFF

def joined (high low : Nat) : Nat :=
  (high - 0xD800) * 1024 + (low - 0xDC00) + 0x10000

/-- The generalised UTF-8 form of a code point, surrogates included. -/
def codePoint (value : Nat) : Bytes :=
  if value < 0x80 then [UInt8.ofNat value]
  else if value < 0x800 then [UInt8.ofNat (0xC0 + value / 64), UInt8.ofNat (0x80 + value % 64)]
  else if value < 0x10000 then
    [UInt8.ofNat (0xE0 + value / 4096), UInt8.ofNat (0x80 + value / 64 % 64),
     UInt8.ofNat (0x80 + value % 64)]
  else
    [UInt8.ofNat (0xF0 + value / 262144), UInt8.ofNat (0x80 + value / 4096 % 64),
     UInt8.ofNat (0x80 + value / 64 % 64), UInt8.ofNat (0x80 + value % 64)]

def toOctets : List Piece → Bytes
  | [] => []
  | raw value :: rest => value :: toOctets rest
  | [unit value] => codePoint value
  | unit value :: raw next :: rest => codePoint value ++ next :: toOctets rest
  | unit value :: unit next :: rest =>
    if isHighSurrogate value && isLowSurrogate next then
      codePoint (joined value next) ++ toOctets rest
    else codePoint value ++ toOctets (unit next :: rest)

/-- Whether pieces may stand for a text: no raw control characters, no lone surrogates. -/
def isPlain : List Piece → Bool
  | [] => true
  | raw value :: rest => 32 ≤ value && isPlain rest
  | [unit value] => !isHighSurrogate value && !isLowSurrogate value
  | unit value :: raw next :: rest =>
    !isHighSurrogate value && !isLowSurrogate value && 32 ≤ next && isPlain rest
  | unit value :: unit next :: rest =>
    if isHighSurrogate value then isLowSurrogate next && isPlain rest
    else !isLowSurrogate value && isPlain (unit next :: rest)

def toString? (pieces : List Piece) : Option String :=
  if isPlain pieces then Text.ofUtf8? (toOctets pieces) else none

def isSkippable (pieces : List Piece) : Bool :=
  pieces.all fun
    | raw value => 32 ≤ value
    | unit _ => true

/-- The pieces up to the quote that ends a body, and what follows the quote. Pieces are gathered
last first. -/
def body? (gathered : List Piece) : Bytes → Option (List Piece × Bytes)
  | [] => none
  | first :: rest =>
    if first = ascii '"' then some (gathered.reverse, rest)
    else if first = ascii '\\' then
      match rest with
      | [] => none
      | letter :: rest =>
        match ofLetter? letter with
        | some value => body? (unit value :: gathered) rest
        | none =>
          if letter = ascii 'u' then
            match rest with
            | a :: b :: c :: d :: rest =>
              match ofHexadecimal? [a, b, c, d] with
              | some value => body? (unit value :: gathered) rest
              | none => none
            | _ => none
          else none
    else body? (raw first :: gathered) rest

theorem body?_length {gathered pieces : List Piece} {bytes rest : Bytes}
    (found : body? gathered bytes = some (pieces, rest)) : rest.length < bytes.length := by
  fun_induction body? gathered bytes with
  | case1 => contradiction
  | case2 =>
      cases found
      simp
  | case3 => contradiction
  | case4 =>
      rename_i shorter
      have := shorter found
      simp only [List.length_cons]
      omega
  | case5 =>
      rename_i shorter
      have := shorter found
      simp only [List.length_cons]
      omega
  | case6 => contradiction
  | case7 => contradiction
  | case8 => contradiction
  | case9 =>
      rename_i shorter
      have := shorter found
      simp only [List.length_cons]
      omega

end Piece

end DocumentReplication.Json
