import DocumentReplication.Text.Numeral

/-!
Addresses to listen on: an IPv4 address, or an IPv6 address in brackets with an optional scope, and
a port. The written form of an IPv6 address shortens its first longest run of zeros.
-/

namespace DocumentReplication

inductive Address where
  | four (octets : List Nat)
  | six (groups : List Nat) (scope : Nat)
deriving DecidableEq, Repr

structure Endpoint where
  address : Address
  port : Nat
deriving DecidableEq, Repr

namespace Endpoint

def joined (separator : Char) (parts : List (List Char)) : List Char :=
  List.intercalate [separator] parts

def octetsText (octets : List Nat) : List Char :=
  joined '.' (octets.map Decimal.digits)

def groupsText (groups : List Nat) : List Char :=
  joined ':' (groups.map Hexadecimal.digits)

def leadingZeros (groups : List Nat) : Nat :=
  (groups.takeWhile (· == 0)).length

/-- Start and length of the first longest run of zeros. -/
def longestRun : (start : Nat) → List Nat → Nat × Nat
  | start, [] => (start, 0)
  | start, group :: rest =>
    let here := leadingZeros (group :: rest)
    let (place, length) := longestRun (start + 1) rest
    if length ≤ here then (start, here) else (place, length)

def sixText (groups : List Nat) : List Char :=
  match groups with
  | [0, 0, 0, 0, 0, 0xffff, high, low] =>
    ':' :: ':' :: 'f' :: 'f' :: 'f' :: 'f' :: ':' ::
      octetsText [high / 256, high % 256, low / 256, low % 256]
  | _ =>
    let (start, length) := longestRun 0 groups
    if 1 < length then
      groupsText (groups.take start) ++ [':', ':'] ++ groupsText (groups.drop (start + length))
    else groupsText groups

def write (endpoint : Endpoint) : List Char :=
  let port := ':' :: Decimal.digits endpoint.port
  match endpoint.address with
  | .four octets => octetsText octets ++ port
  | .six groups 0 => '[' :: sixText groups ++ ']' :: port
  | .six groups scope => '[' :: sixText groups ++ '%' :: Decimal.digits scope ++ ']' :: port

def text (endpoint : Endpoint) : String :=
  String.ofList endpoint.write

structure NumberForm where
  digitValue? : Char → Option Nat
  radix : Nat
  maxDigits : Option Nat
  zerosMayLead : Bool
  bound : Nat

def decimalDigit? (c : Char) : Option Nat :=
  if Decimal.isDigit c then some (Decimal.digitValue c) else none

def octetForm : NumberForm := ⟨decimalDigit?, 10, some 3, false, 256⟩

def portForm : NumberForm := ⟨decimalDigit?, 10, none, true, 65536⟩

def scopeForm : NumberForm := ⟨decimalDigit?, 10, none, true, UInt32.size⟩

def groupForm : NumberForm := ⟨Hexadecimal.digitValue?, 16, some 4, true, 65536⟩

def NumberForm.read? (form : NumberForm) (text : List Char) : Option (Nat × List Char) :=
  let run := text.takeWhile fun c => (form.digitValue? c).isSome
  let value := (run.filterMap form.digitValue?).foldl (fun total d => form.radix * total + d) 0
  let tooLong := form.maxDigits.any (· < run.length)
  let padded := !form.zerosMayLead && run.head? == some '0' && 1 < run.length
  if run.isEmpty || tooLong || padded || form.bound ≤ value then none
  else some (value, text.drop run.length)

def mark? (mark : Char) : List Char → Option (List Char)
  | c :: rest => if c = mark then some rest else none
  | [] => none

def four? (text : List Char) : Option (List Nat × List Char) := do
  let (a, text) ← octetForm.read? text
  let (b, text) ← octetForm.read? (← mark? '.' text)
  let (c, text) ← octetForm.read? (← mark? '.' text)
  let (d, text) ← octetForm.read? (← mark? '.' text)
  return ([a, b, c, d], text)

/-- The two groups that an embedded IPv4 address stands for. -/
def embedded? (text : List Char) : Option (List Nat × List Char) := do
  match ← four? text with
  | ([a, b, c, d], rest) => return ([a * 256 + b, c * 256 + d], rest)
  | _ => none

/-- As many groups as stand here, up to a limit, whether they end in an embedded IPv4 address, and
what follows. -/
def groups : (limit : Nat) → (first : Bool) → List Char → List Nat × Bool × List Char
  | 0, _, text => ([], false, text)
  | limit + 1, first, text =>
    match if first then some text else mark? ':' text with
    | none => ([], false, text)
    | some inner =>
      match if 0 < limit then embedded? inner else none with
      | some (pair, rest) => (pair, true, rest)
      | none =>
        match groupForm.read? inner with
        | none => ([], false, text)
        | some (group, rest) =>
          let (others, embedded, rest) := groups limit false rest
          (group :: others, embedded, rest)

def six? (text : List Char) : Option (List Nat × List Char) :=
  let (head, embedded, text) := groups 8 true text
  if head.length = 8 then some (head, text)
  else if embedded then none
  else do
    let text ← mark? ':' (← mark? ':' text)
    let (tail, _, text) := groups (7 - head.length) true text
    return (head ++ List.replicate (8 - head.length - tail.length) 0 ++ tail, text)

def port? (text : List Char) : Option (Nat × List Char) := do
  portForm.read? (← mark? ':' text)

def readFour? (text : List Char) : Option Endpoint := do
  let (octets, text) ← four? text
  let (port, text) ← port? text
  if text.isEmpty then some ⟨.four octets, port⟩ else none

/-- No scope is the scope 0. -/
def scope (text : List Char) : Nat × List Char :=
  ((mark? '%' text).bind scopeForm.read?).getD (0, text)

def readSix? (text : List Char) : Option Endpoint := do
  let (groups, text) ← six? (← mark? '[' text)
  let (scope, text) := scope text
  let (port, text) ← port? (← mark? ']' text)
  if text.isEmpty then some ⟨.six groups scope, port⟩ else none

def read? (text : List Char) : Option Endpoint :=
  (readFour? text).or (readSix? text)

def ofText? (text : String) : Option Endpoint :=
  read? text.toList

end Endpoint

end DocumentReplication
