import DocumentReplication.Text.Numeral
import DocumentReplication.Toml.Scanner
import DocumentReplication.Toml.Value

/-!
Words: truth values, whole numbers, numbers with fractions, and moments. Digits may be grouped by
single underscores.
-/

namespace DocumentReplication.Toml

def isWordPart (c : Char) : Bool :=
  'A' ≤ c && c ≤ 'Z' || 'a' ≤ c && c ≤ 'z' || '0' ≤ c && c ≤ '9' ||
  c == '_' || c == '+' || c == '-' || c == '.' || c == ':'

def ungroup? (isDigit : Char → Bool) (text : List Char) : Option (List Char) :=
  let groups := Text.pieces '_' text
  if groups.all fun group => !group.isEmpty && group.all isDigit then some groups.flatten else none

def splitSign : List Char → Bool × List Char
  | '+' :: rest => (false, rest)
  | '-' :: rest => (true, rest)
  | digits => (false, digits)

def whole? (text : List Char) : Option (List Char) := do
  let digits ← ungroup? Decimal.isDigit text
  if digits.head? = some '0' ∧ 1 < digits.length then none else some digits

def isDigitBelow (radix : Nat) (c : Char) : Bool :=
  (Hexadecimal.digitValue? c).any (· < radix)

def radix? (c : Char) : Option Nat :=
  if c = 'x' then some 16 else if c = 'o' then some 8 else if c = 'b' then some 2 else none

def inRadix? (radix : Nat) (text : List Char) : Option Int := do
  let digits ← ungroup? (isDigitBelow radix) text
  let values := digits.filterMap Hexadecimal.digitValue?
  return Int.ofNat (values.foldl (fun total digit => radix * total + digit) 0)

def inDecimal? (text : List Char) : Option Int := do
  let (negative, digits) := splitSign text
  let size := Decimal.value (← whole? digits)
  return if negative then -(size : Int) else size

/-- Whole numbers have 64 bits. -/
def integer? (text : List Char) : Option Int := do
  let value ← match text with
    | '0' :: c :: rest =>
      match radix? c with
      | some radix => inRadix? radix rest
      | none => inDecimal? text
    | _ => inDecimal? text
  if -0x8000000000000000 ≤ value ∧ value < 0x8000000000000000 then some value else none

/-- The smallest number that is nearer to infinity than to any number of 64 bits in binary. -/
def overflow : Nat := (1 <<< 1024) - (1 <<< 970)

def isFinite (digits : List Char) (exponent : Int) : Bool :=
  let size := Decimal.value digits
  let places := (Decimal.digits size).length + exponent
  if size = 0 ∨ places < 300 then true
  else if 400 < places then false
  else match exponent with
    | .ofNat power => Decimal.shift power size < overflow
    | .negSucc power => size < Decimal.shift (power + 1) overflow

/-- What stands before and after a mark; nothing after it if the mark is missing. -/
def splitAt (mark : Char → Bool) (text : List Char) : List Char × Option (List Char) :=
  (text.takeWhile (!mark ·), (text.dropWhile (!mark ·)).tail?)

def exponent? (text : List Char) : Option Int := do
  let (negative, digits) := splitSign text
  let size := Decimal.value (← ungroup? Decimal.isDigit digits)
  return if negative then -(size : Int) else size

/-- A fraction, an exponent or both follow a whole number. Only positive numbers can be too
large. -/
def isReal (text : List Char) : Bool :=
  let (negative, text) := splitSign text
  if text = ['i', 'n', 'f'] ∨ text = ['n', 'a', 'n'] then true
  else
    let (mantissa, power) := splitAt (fun c => c == 'e' || c == 'E') text
    let (whole, fraction) := splitAt (· == '.') mantissa
    if power.isNone && fraction.isNone then false
    else
      let parts := do
        let whole ← whole? whole
        let fraction ← (fraction.map (ungroup? Decimal.isDigit)).getD (some [])
        let power ← (power.map exponent?).getD (some 0)
        return (whole ++ fraction, power - fraction.length)
      match parts with
      | some (digits, exponent) => negative || isFinite digits exponent
      | none => false

def digits? (count : Nat) (text : List Char) : Option Nat :=
  if text.length = count then Decimal.value? text else none

def daysIn (year month : Nat) : Nat :=
  if month = 2 then
    if year % 4 = 0 ∧ (year % 100 ≠ 0 ∨ year % 400 = 0) then 29 else 28
  else if month = 4 ∨ month = 6 ∨ month = 9 ∨ month = 11 then 30
  else 31

def isDate (text : List Char) : Bool :=
  match Text.pieces '-' text with
  | [year, month, day] =>
    match digits? 4 year, digits? 2 month, digits? 2 day with
    | some year, some month, some day =>
      0 < month && month ≤ 12 && 0 < day && day ≤ daysIn year month
    | _, _, _ => false
  | _ => false

def isSeconds (text : List Char) : Bool :=
  let (seconds, fraction) := splitAt (· == '.') text
  (digits? 2 seconds).any (· ≤ 60) && fraction.all fun digits => (Decimal.value? digits).isSome

def isTime (text : List Char) : Bool :=
  match Text.pieces ':' text with
  | [hour, minute, seconds] =>
    (digits? 2 hour).any (· < 24) && (digits? 2 minute).any (· < 60) && isSeconds seconds
  | _ => false

def isOffset (text : List Char) : Bool :=
  match Text.pieces ':' text with
  | [hour, minute] => (digits? 2 hour).any (· < 24) && (digits? 2 minute).any (· < 60)
  | _ => false

def isZonedTime (text : List Char) : Bool :=
  let zone (c : Char) : Bool := c == 'Z' || c == 'z' || c == '+' || c == '-'
  let time := text.takeWhile (!zone ·)
  match text.dropWhile (!zone ·) with
  | [] => isTime time
  | c :: offset =>
    isTime time && if c == 'Z' || c == 'z' then offset.isEmpty else isOffset offset

/-- A date alone, a time alone, or both with the letter `T` between them. -/
def isMoment (text : List Char) : Bool :=
  isDate text || isTime text ||
  match text.drop 10 with
  | c :: time => (c == 'T' || c == 't') && isDate (text.take 10) && isZonedTime time
  | [] => false

def word? (word : List Char) : Option Toml :=
  if word = ['t', 'r', 'u', 'e'] then some (bool true)
  else if word = ['f', 'a', 'l', 's', 'e'] then some (bool false)
  else if isMoment word then some (moment (String.ofList word))
  else if isReal word then some (real (String.ofList word))
  else (integer? word).map integer

/-- A word. A date may take a time after a blank. -/
def scanWord (text : List Char) : Option (Toml × List Char) := do
  let word := text.takeWhile isWordPart
  let rest := text.dropWhile isWordPart
  match rest with
  | ' ' :: after =>
    let time := after.takeWhile isWordPart
    if isDate word && isZonedTime time then
      some (moment (String.ofList (word ++ ' ' :: time)), after.dropWhile isWordPart)
    else (word? word).map fun value => (value, rest)
  | _ => (word? word).map fun value => (value, rest)

end DocumentReplication.Toml
