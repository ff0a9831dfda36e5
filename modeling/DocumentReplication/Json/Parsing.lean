import DocumentReplication.Json.Value

/-!
Reading JSON documents. Octets are cut into tokens, and a document is completed from the inside out:
the state of reading is what is expected next, with the holes of the arrays and objects around it.
So documents may nest to any depth.
-/

namespace DocumentReplication.Json

open Bytes (ascii asciiText characters)

inductive Token where
  | openArray
  | closeArray
  | openObject
  | closeObject
  | colon
  | comma
  | text (pieces : List Piece)
  | atom (value : Json)

def isSpace (c : UInt8) : Bool :=
  c == ascii ' ' || c == ascii '\t' || c == ascii '\n' || c == ascii '\r'

def isDigit (c : UInt8) : Bool :=
  ascii '0' ≤ c && c ≤ ascii '9'

/-- At least one digit, and no zero before others. -/
def whole? : Bytes → Option (Bytes × Bytes)
  | [] => none
  | first :: rest =>
    if first = ascii '0' then some ([first], rest)
    else if isDigit first then some (first :: rest.takeWhile isDigit, rest.dropWhile isDigit)
    else none

def marked? (mark : Bytes) (bytes : Bytes) : Option (Bytes × Bytes) :=
  let digits := bytes.takeWhile isDigit
  if digits.isEmpty then none else some (mark ++ digits, bytes.dropWhile isDigit)

def fraction? : Bytes → Option (Bytes × Bytes)
  | [] => some ([], [])
  | first :: rest => if first = ascii '.' then marked? [first] rest else some ([], first :: rest)

def exponent? : Bytes → Option (Bytes × Bytes)
  | [] => some ([], [])
  | [last] => if last = ascii 'e' ∨ last = ascii 'E' then none else some ([], [last])
  | first :: second :: rest =>
    if first = ascii 'e' ∨ first = ascii 'E' then
      if second = ascii '+' ∨ second = ascii '-' then marked? [first, second] rest
      else marked? [first] (second :: rest)
    else some ([], first :: second :: rest)

def unsigned? (negative : Bool) (bytes : Bytes) : Option (Json × Bytes) := do
  let (whole, rest) ← whole? bytes
  let (fraction, rest) ← fraction? rest
  let (exponent, rest) ← exponent? rest
  let size := Decimal.value (characters whole)
  let value :=
    if fraction.isEmpty && exponent.isEmpty && !(negative && size == 0) then
      integer (if negative then -(size : Int) else size)
    else real ((if negative then [ascii '-'] else []) ++ whole ++ fraction ++ exponent)
  return (value, rest)

def number? : Bytes → Option (Json × Bytes)
  | [] => none
  | first :: rest =>
    if first = ascii '-' then unsigned? true rest else unsigned? false (first :: rest)

def word? (word : Bytes) (value : Json) (bytes : Bytes) : Option (Json × Bytes) :=
  if word.isPrefixOf bytes then some (value, bytes.drop word.length) else none

def token? (first : UInt8) (rest : Bytes) : Option (Token × Bytes) :=
  if first = ascii '[' then some (.openArray, rest)
  else if first = ascii ']' then some (.closeArray, rest)
  else if first = ascii '\x7b' then some (.openObject, rest)
  else if first = ascii '\x7d' then some (.closeObject, rest)
  else if first = ascii ':' then some (.colon, rest)
  else if first = ascii ',' then some (.comma, rest)
  else if first = ascii '"' then (Piece.body? [] rest).map fun (pieces, rest) => (.text pieces, rest)
  else
    let atom :=
      if first = ascii 'n' then word? (asciiText ['n', 'u', 'l', 'l']) null (first :: rest)
      else if first = ascii 't' then word? (asciiText ['t', 'r', 'u', 'e']) (bool true) (first :: rest)
      else if first = ascii 'f' then
        word? (asciiText ['f', 'a', 'l', 's', 'e']) (bool false) (first :: rest)
      else number? (first :: rest)
    atom.map fun (value, rest) => (.atom value, rest)

theorem whole?_length {bytes digits rest : Bytes} (found : whole? bytes = some (digits, rest)) :
    rest.length < bytes.length := by
  cases bytes with
  | nil => simp [whole?] at found
  | cons first left =>
      simp only [whole?] at found
      split at found
      · cases found
        simp
      · split at found
        · cases found
          exact Nat.lt_succ_of_le (List.dropWhile_sublist isDigit).length_le
        · contradiction

theorem marked?_length {mark bytes digits rest : Bytes}
    (found : marked? mark bytes = some (digits, rest)) : rest.length ≤ bytes.length := by
  simp only [marked?] at found
  split at found
  · contradiction
  · cases found
    exact (List.dropWhile_sublist isDigit).length_le

theorem fraction?_length {bytes digits rest : Bytes}
    (found : fraction? bytes = some (digits, rest)) : rest.length ≤ bytes.length := by
  cases bytes with
  | nil =>
      cases found
      simp
  | cons first left =>
      simp only [fraction?] at found
      split at found
      · exact Nat.le_succ_of_le (marked?_length found)
      · cases found
        simp

theorem exponent?_length {bytes digits rest : Bytes}
    (found : exponent? bytes = some (digits, rest)) : rest.length ≤ bytes.length := by
  unfold exponent? at found
  split at found
  · cases found
    simp
  · split at found
    · contradiction
    · cases found
      simp
  · split at found
    · split at found
      · exact Nat.le_succ_of_le (Nat.le_succ_of_le (marked?_length found))
      · exact Nat.le_succ_of_le (marked?_length found)
    · cases found
      simp

theorem unsigned?_length {negative : Bool} {bytes rest : Bytes} {value : Json}
    (found : unsigned? negative bytes = some (value, rest)) : rest.length < bytes.length := by
  simp only [unsigned?, Option.bind_eq_bind, Option.bind_eq_some_iff, Option.pure_def,
    Option.some.injEq, Prod.mk.injEq, Prod.exists] at found
  obtain ⟨_, left, first, _, middle, second, _, last, third, _, rfl⟩ := found
  have := whole?_length first
  have := fraction?_length second
  have := exponent?_length third
  omega

theorem number?_length {bytes rest : Bytes} {value : Json}
    (found : number? bytes = some (value, rest)) : rest.length < bytes.length := by
  cases bytes with
  | nil => simp [number?] at found
  | cons first left =>
      simp only [number?] at found
      split at found
      · have := unsigned?_length found
        simp only [List.length_cons]
        omega
      · exact unsigned?_length found

theorem word?_length {word bytes rest : Bytes} {given value : Json} (nonempty : word ≠ [])
    (found : word? word given bytes = some (value, rest)) : rest.length < bytes.length := by
  simp only [word?] at found
  split at found
  · rename_i starts
    cases found
    have bound := (List.isPrefixOf_iff_prefix.mp starts).length_le
    have positive := List.length_pos_iff.mpr nonempty
    simp only [List.length_drop]
    omega
  · contradiction

theorem token?_length {first : UInt8} {bytes rest : Bytes} {token : Token}
    (found : token? first bytes = some (token, rest)) : rest.length ≤ bytes.length := by
  simp only [token?] at found
  iterate 6
    split at found
    · cases found
      simp
  split at found
  · simp only [Option.map_eq_some_iff, Prod.mk.injEq, Prod.exists] at found
    obtain ⟨_, _, body, _, rfl⟩ := found
    exact Nat.le_of_lt (Piece.body?_length body)
  · simp only [Option.map_eq_some_iff, Prod.mk.injEq, Prod.exists] at found
    obtain ⟨value, left, atom, _, rfl⟩ := found
    have shorter : left.length < (first :: bytes).length := by
      split at atom
      · exact word?_length (by simp [asciiText]) atom
      · split at atom
        · exact word?_length (by simp [asciiText]) atom
        · split at atom
          · exact word?_length (by simp [asciiText]) atom
          · exact number?_length atom
    simp only [List.length_cons] at shorter
    omega

/-- The place of a document inside an array or an object; earlier neighbours last first. -/
inductive Hole where
  | element (before : List Json)
  | member (before : List (List Piece × Json)) (key : List Piece)

/-- What may come next. The innermost hole comes first. -/
inductive Expectation where
  | document (holes : List Hole)
  | firstElement (holes : List Hole)
  | elementEnd (before : List Json) (holes : List Hole)
  | firstKey (holes : List Hole)
  | nextKey (before : List (List Piece × Json)) (holes : List Hole)
  | separator (before : List (List Piece × Json)) (key : List Piece) (holes : List Hole)
  | memberEnd (before : List (List Piece × Json)) (holes : List Hole)
  | nothing (complete : Json)

namespace Expectation

def fill (filler : Json) : List Hole → Expectation
  | [] => nothing filler
  | .element before :: holes => elementEnd (filler :: before) holes
  | .member before key :: holes => memberEnd ((key, filler) :: before) holes

def start (holes : List Hole) : Token → Option Expectation
  | .openArray => some (firstElement holes)
  | .openObject => some (firstKey holes)
  | .text pieces => some (fill (.text pieces) holes)
  | .atom value => some (fill value holes)
  | _ => none

def next : Expectation → Token → Option Expectation
  | document holes, token => start holes token
  | firstElement holes, .closeArray => some (fill (.array []) holes)
  | firstElement holes, token => start (.element [] :: holes) token
  | elementEnd before holes, .comma => some (document (.element before :: holes))
  | elementEnd before holes, .closeArray => some (fill (.array before.reverse) holes)
  | firstKey holes, .closeObject => some (fill (.object []) holes)
  | firstKey holes, .text pieces => some (separator [] pieces holes)
  | nextKey before holes, .text pieces => some (separator before pieces holes)
  | separator before key holes, .colon => some (document (.member before key :: holes))
  | memberEnd before holes, .comma => some (nextKey before holes)
  | memberEnd before holes, .closeObject => some (fill (.object before.reverse) holes)
  | _, _ => none

end Expectation

def run (expected : Expectation) (bytes : Bytes) : Option Json :=
  match bytes with
  | [] =>
    match expected with
    | .nothing complete => some complete
    | _ => none
  | first :: rest =>
    if isSpace first then run expected rest
    else
      match _found : token? first rest with
      | none => none
      | some (token, left) =>
        match expected.next token with
        | none => none
        | some after => run after left
termination_by bytes.length
decreasing_by
  · simp
  · have := token?_length _found
    simp only [List.length_cons]
    omega

def parse? (bytes : Bytes) : Option Json :=
  run (.document []) bytes

end DocumentReplication.Json
