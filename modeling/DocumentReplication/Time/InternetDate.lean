import DocumentReplication.Text.Numeral
import DocumentReplication.Text.Split
import DocumentReplication.Time.Calendar
import DocumentReplication.Time.Timestamp

/-!
Internet dates (RFC 3339). Writing gives one form per moment: universal time, three digits of
fraction unless the millisecond is 0, and a sign on years that four digits cannot hold. Leap seconds
have the number 60. Reading is wider: it takes any offset, blanks between the parts and shorter
numbers.
-/

namespace DocumentReplication.InternetDate

open Text

def year (number : Int) : List Char :=
  match number with
  | .ofNat size => if size ≤ 9999 then Decimal.padded 4 size else '+' :: Decimal.padded 4 size
  | .negSucc size => '-' :: Decimal.padded 4 (size + 1)

def date (day : CalendarDate) : List Char :=
  year day.year ++ '-' :: Decimal.padded 2 day.month ++ '-' :: Decimal.padded 2 day.day

def clock (millis : Nat) (leap : Bool) : List Char :=
  let seconds := millis / 1000
  let fraction := millis % 1000
  Decimal.padded 2 (seconds / 3600) ++ ':' :: Decimal.padded 2 (seconds / 60 % 60) ++
    ':' :: Decimal.padded 2 (if leap then 60 else seconds % 60) ++
    (if fraction = 0 then [] else '.' :: Decimal.padded 3 fraction)

def dayMillis : Int := 86400000

def write (time : Timestamp) : List Char :=
  date (.ofDays (time.regular / dayMillis)) ++
    'T' :: clock (time.regular % dayMillis).toNat time.leap ++ ['Z']

def text (time : Timestamp) : String :=
  String.ofList (write time)

def number? (width : Nat) (text : List Char) : Option (Nat × List Char) :=
  let taken := (text.take width).takeWhile Decimal.isDigit
  if taken.isEmpty then none else some (Decimal.value taken, text.drop taken.length)

def part? (width : Nat) (text : List Char) : Option (Nat × List Char) :=
  number? width (trimStart text)

/-- A signed year may be of any length, an unsigned one has at most four digits. -/
def year? (text : List Char) : Option (Int × List Char) :=
  match trimStart text with
  | '-' :: rest => (number? rest.length rest).map fun (size, rest) => (-(size : Int), rest)
  | '+' :: rest => (number? rest.length rest).map fun (size, rest) => ((size : Int), rest)
  | rest => (number? 4 rest).map fun (size, rest) => ((size : Int), rest)

def mark? (mark : Char) (text : List Char) : Option (List Char) :=
  match trimStart text with
  | c :: rest => if c = mark then some rest else none
  | [] => none

def date? (text : List Char) : Option (CalendarDate × List Char) := do
  let (year, text) ← year? text
  let text ← mark? '-' text
  let (month, text) ← part? 2 text
  let text ← mark? '-' text
  let (day, text) ← part? 2 text
  let date : CalendarDate := ⟨year, month, day⟩
  if date.Exists ∧ -262143 ≤ year ∧ year ≤ 262142 then some (date, text) else none

/-- A fraction of a second in milliseconds; digits past the third only have to be digits. -/
def fraction? : List Char → Option (Nat × List Char)
  | '.' :: text =>
    let digits := text.takeWhile Decimal.isDigit
    if digits.isEmpty then none
    else
      let kept := digits.take 3
      some (Decimal.shift (3 - kept.length) (Decimal.value kept), text.drop digits.length)
  | text => some (0, text)

/-- The time of day in milliseconds up to the leap second, and whether it is in one. -/
def clock? (text : List Char) : Option (Nat × Bool × List Char) := do
  let (hour, text) ← part? 2 text
  let text ← mark? ':' text
  let (minute, text) ← part? 2 text
  let text ← mark? ':' text
  let (second, text) ← part? 2 text
  let (fraction, text) ← fraction? text
  if hour ≤ 23 ∧ minute ≤ 59 ∧ second ≤ 60 then
    some (((hour * 60 + minute) * 60 + min second 59) * 1000 + fraction, second == 60, text)
  else none

def twoDigits? (bound : Nat) : List Char → Option (Nat × List Char)
  | high :: low :: rest =>
    if Decimal.isDigit high && Decimal.isDigit low then
      let size := Decimal.value [high, low]
      if size < bound then some (size, rest) else none
    else none
  | _ => none

def sign? : List Char → Option (Int × List Char)
  | '+' :: rest => some (1, rest)
  | '-' :: rest => some (-1, rest)
  | '−' :: rest => some (-1, rest)
  | _ => none

def offset? (text : List Char) : Option (Int × List Char) :=
  match text with
  | 'Z' :: rest => some (0, rest)
  | 'z' :: rest => some (0, rest)
  | _ =>
    if (text.take 3).map Char.toLower = ['u', 't', 'c'] then some (0, text.drop 3)
    else do
      let (sign, text) ← sign? text
      let (hours, text) ← twoDigits? 24 text
      let (minutes, text) ← twoDigits? 60 (text.dropWhile fun c => c == ':' || isBlank c)
      some (sign * (hours * 60 + minutes), text)

def separated? : List Char → Option (List Char)
  | c :: rest => if c = 'T' ∨ c = 't' ∨ c = ' ' then some rest else none
  | [] => none

def read? (text : List Char) : Option Timestamp := do
  let (date, text) ← date? text
  let text ← separated? text
  let (clock, leap, text) ← clock? text
  let (offset, text) ← offset? (trimStart text)
  if (trimStart text).isEmpty then
    Timestamp.of? (date.toDays * dayMillis + clock - offset * 60000) leap
  else none

def ofText? (text : String) : Option Timestamp :=
  read? text.toList

end DocumentReplication.InternetDate
