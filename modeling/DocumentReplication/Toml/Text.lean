import DocumentReplication.Toml.Scanner

/-!
Texts and keys. A text stands between quotes, on one line or, between threefold quotes, on several;
between double quotes a backslash gives the next characters another meaning.
-/

namespace DocumentReplication.Toml

def character? (digits : List Char) : Option Char := do
  let values ← digits.mapM Hexadecimal.digitValue?
  let number := values.foldl (fun total digit => 16 * total + digit) 0
  if number.isValidChar then some (Char.ofNat number) else none

/-- What an escape means, and how many characters it takes after the backslash. -/
def escape? : List Char → Option (Char × Nat)
  | [] => none
  | c :: rest =>
    if c = 'b' then some ('\x08', 1)
    else if c = 't' then some ('\t', 1)
    else if c = 'n' then some ('\n', 1)
    else if c = 'f' then some ('\x0c', 1)
    else if c = 'r' then some ('\r', 1)
    else if c = '"' then some ('"', 1)
    else if c = '\\' then some ('\\', 1)
    else if c = 'u' ∧ 4 ≤ rest.length then (character? (rest.take 4)).map fun c => (c, 5)
    else if c = 'U' ∧ 8 ≤ rest.length then (character? (rest.take 8)).map fun c => (c, 9)
    else none

def preceded (first : List Char) : Option (List Char × List Char) → Option (List Char × List Char) :=
  Option.map fun (characters, rest) => (first ++ characters, rest)

def basicBody (text : List Char) : Option (List Char × List Char) :=
  match text with
  | [] => none
  | c :: rest =>
    if c = '"' then some ([], rest)
    else if c = '\\' then do
      let (meant, size) ← escape? rest
      preceded [meant] (basicBody (rest.drop size))
    else if isPlain c then preceded [c] (basicBody rest)
    else none
termination_by text.length
decreasing_by all_goals simp only [List.length_drop, List.length_cons]; omega

def literalBody : Scanner (List Char)
  | [] => none
  | c :: rest =>
    if c = '\'' then some ([], rest)
    else if isPlain c then preceded [c] (literalBody rest)
    else none

def quotes (quote : Char) (text : List Char) : Nat :=
  (text.takeWhile (· == quote)).length

/-- Three quotes close a text of several lines; up to two more before them belong to it. -/
def closing? (quote : Char) (text : List Char) : Option (List Char × List Char) :=
  let count := quotes quote text
  if 3 ≤ count then
    let kept := min (count - 3) 2
    some (List.replicate kept quote, text.drop (kept + 3))
  else none

/-- A line that ends in a backslash goes on at the next character that is not blank. -/
def continued? (text : List Char) : Option (List Char) :=
  match skipSpaces text with
  | c :: rest =>
    if c = '\n' then some (rest.dropWhile fun c => isSpace c || c == '\n') else none
  | [] => none

theorem continued?_length {text rest : List Char} (found : continued? text = some rest) :
    rest.length < text.length := by
  simp only [continued?] at found
  split at found
  · rename_i c after first
    split at found
    · cases found
      have shorter : (text.dropWhile isSpace).length ≤ text.length :=
        (List.dropWhile_sublist isSpace).length_le
      rw [show text.dropWhile isSpace = c :: after from first] at shorter
      exact Nat.lt_of_le_of_lt (List.dropWhile_sublist _).length_le shorter
    · contradiction
  · contradiction

def basicLines (text : List Char) : Option (List Char × List Char) :=
  match text with
  | [] => none
  | c :: rest =>
    if c = '"' then
      match closing? '"' text with
      | some closed => some closed
      | none => preceded [c] (basicLines rest)
    else if c = '\\' then
      match _found : continued? rest with
      | some next => basicLines next
      | none => do
        let (meant, size) ← escape? rest
        preceded [meant] (basicLines (rest.drop size))
    else if c = '\n' ∨ isPlain c then preceded [c] (basicLines rest)
    else none
termination_by text.length
decreasing_by
  · simp
  · have := continued?_length _found
    simp only [List.length_cons]
    omega
  · simp only [List.length_drop, List.length_cons]
    omega
  · simp

def literalLines : Scanner (List Char)
  | [] => none
  | c :: rest =>
    if c = '\'' then
      match closing? '\'' (c :: rest) with
      | some closed => some closed
      | none => preceded [c] (literalLines rest)
    else if c = '\n' ∨ isPlain c then preceded [c] (literalLines rest)
    else none

/-- The first line of a text of several lines may be empty, and does not count. -/
def skipFirstLine : List Char → List Char
  | [] => []
  | c :: rest => if c = '\n' then rest else c :: rest

def scanText (text : List Char) : Option (String × List Char) :=
  let scanned := match text with
    | '"' :: '"' :: '"' :: rest => basicLines (skipFirstLine rest)
    | '\'' :: '\'' :: '\'' :: rest => literalLines (skipFirstLine rest)
    | '"' :: rest => basicBody rest
    | '\'' :: rest => literalBody rest
    | _ => none
  scanned.map fun (characters, rest) => (String.ofList characters, rest)

def isBare (c : Char) : Bool :=
  'A' ≤ c && c ≤ 'Z' || 'a' ≤ c && c ≤ 'z' || '0' ≤ c && c ≤ '9' || c == '_' || c == '-'

/-- A part of a dotted key: a bare word, or a text on one line. -/
def scanName (text : List Char) : Option (String × List Char) :=
  match text with
  | '"' :: rest => (basicBody rest).map fun (name, rest) => (String.ofList name, rest)
  | '\'' :: rest => (literalBody rest).map fun (name, rest) => (String.ofList name, rest)
  | _ =>
    let name := text.takeWhile isBare
    if name.isEmpty then none else some (String.ofList name, text.dropWhile isBare)

def maxKeyParts : Nat := 79

/-- At most so many parts of a dotted key, with spaces around them. -/
def scanParts : Nat → Scanner (List String)
  | 0, _ => none
  | limit + 1, text => do
    let (name, rest) ← scanName (skipSpaces text)
    match skipSpaces rest with
    | '.' :: rest =>
      let (names, rest) ← scanParts limit rest
      return (name :: names, rest)
    | rest => return ([name], rest)

def scanKey : Scanner (List String) := scanParts maxKeyParts

end DocumentReplication.Toml
