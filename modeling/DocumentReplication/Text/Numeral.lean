/-!
Whole numbers in decimal, and natural numbers in hexadecimal, in lower case and without leading
zeros. `value_digits` reads back what `digits` writes.
-/

namespace DocumentReplication.Decimal

def digitChar (digit : Nat) : Char :=
  Char.ofNat (48 + digit)

def digitValue (c : Char) : Nat :=
  c.toNat - 48

def digits (value : Nat) : List Char :=
  if value < 10 then [digitChar value]
  else digits (value / 10) ++ [digitChar (value % 10)]

def value (text : List Char) : Nat :=
  text.foldl (fun total c => 10 * total + digitValue c) 0

def shift : (places : Nat) → Nat → Nat
  | 0, number => number
  | places + 1, number => shift places (10 * number)

def isDigit (c : Char) : Bool :=
  '0' ≤ c && c ≤ '9'

def value? (text : List Char) : Option Nat :=
  if text.isEmpty || !text.all isDigit then none else some (value text)

def signed (number : Int) : List Char :=
  match number with
  | .ofNat size => digits size
  | .negSucc size => '-' :: digits (size + 1)

def text (number : Int) : String :=
  String.ofList (signed number)

def natText (number : Nat) : String :=
  String.ofList (digits number)

def padded (width : Nat) (number : Nat) : List Char :=
  let written := digits number
  List.replicate (width - written.length) '0' ++ written

theorem digitChar_spec : ∀ digit, digit < 10 →
    digitValue (digitChar digit) = digit ∧ isDigit (digitChar digit) = true := by
  decide

theorem digits_ne_nil (number : Nat) : digits number ≠ [] := by
  unfold digits
  split <;> simp

theorem all_isDigit_digits (number : Nat) : (digits number).all isDigit = true := by
  rw [digits]
  split
  · simp [digitChar_spec number (by assumption)]
  · simp [all_isDigit_digits (number / 10), digitChar_spec (number % 10) (by omega)]
termination_by number

theorem value_digits (number : Nat) : value (digits number) = number := by
  rw [digits]
  split
  · simp [value, digitChar_spec number (by assumption)]
  · have earlier := value_digits (number / 10)
    simp only [value, List.foldl_append, List.foldl_cons, List.foldl_nil] at earlier ⊢
    rw [earlier, (digitChar_spec (number % 10) (by omega)).1]
    omega
termination_by number

theorem value?_digits (number : Nat) : value? (digits number) = some number := by
  simp [value?, digits_ne_nil, all_isDigit_digits, value_digits]

theorem digits_no_separator {number : Nat} {c : Char} (other : isDigit c = false) :
    c ∉ digits number := by
  intro member
  have digit := List.all_eq_true.mp (all_isDigit_digits number) c member
  simp [other] at digit

end DocumentReplication.Decimal

namespace DocumentReplication.Hexadecimal

def digitChar (digit : Nat) : Char :=
  if digit < 10 then Char.ofNat (48 + digit) else Char.ofNat (87 + digit)

def digits (value : Nat) : List Char :=
  if value < 16 then [digitChar value]
  else digits (value / 16) ++ [digitChar (value % 16)]

def text (value : Nat) : String :=
  String.ofList (digits value)

def digitValue? (c : Char) : Option Nat :=
  if '0' ≤ c ∧ c ≤ '9' then some (c.toNat - 48)
  else if 'a' ≤ c ∧ c ≤ 'f' then some (c.toNat - 87)
  else if 'A' ≤ c ∧ c ≤ 'F' then some (c.toNat - 55)
  else none

end DocumentReplication.Hexadecimal
