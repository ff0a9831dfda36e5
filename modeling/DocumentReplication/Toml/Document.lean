import DocumentReplication.Toml.Number
import DocumentReplication.Toml.Text

/-!
Reading TOML documents: definitions and headers, one to a line. The definitions between two headers
make up a section, and a document is what its sections build one after another.
-/

namespace DocumentReplication.Toml

/-- Scans what stands between separators, until no separator follows or nothing follows it that can
be scanned. -/
def separated {α : Type} (scan : Scanner α) (text : List Char) : List α × List Char :=
  match scan text with
  | none => ([], text)
  | some (first, rest) =>
    match rest with
    | ',' :: next =>
      if next.length < text.length then
        match separated scan next with
        | ([], _) => ([first], rest)
        | (others, rest) => (first :: others, rest)
      else ([first], rest)
    | _ => ([first], rest)
termination_by text.length

/-- How deep arrays and tables may nest inside a value. -/
def maxDepth : Nat := 79

def scanElement (value : Scanner Toml) : Scanner Toml := fun text => do
  let (element, rest) ← value (← skipLines false text)
  return (element, ← skipLines false rest)

/-- After the opening bracket. The last element may have a comma too. -/
def scanArray (value : Scanner Toml) : Scanner Toml := fun text => do
  let (elements, rest) := separated (scanElement value) text
  let rest := match elements, rest with
    | _ :: _, ',' :: rest => rest
    | _, rest => rest
  let (_, rest) ← mark ']' (← skipLines false rest)
  return (array elements, rest)

def scanDefinition (value : Scanner Toml) : Scanner Definition := fun text => do
  let (key, rest) ← scanKey text
  let (_, rest) ← mark '=' rest
  let (content, rest) ← value (skipSpaces rest)
  return ((key, content), skipSpaces rest)

def scanTable (value : Scanner Toml) : Scanner Toml := fun text => do
  let (definitions, rest) := separated (scanDefinition value) text
  let (_, rest) ← mark '\x7d' (skipSpaces rest)
  return (← ofDefinitions definitions, rest)

def scanScalar : Scanner Toml
  | [] => none
  | c :: rest =>
    if c = '"' ∨ c = '\'' then (scanText (c :: rest)).map fun (value, rest) => (text value, rest)
    else scanWord (c :: rest)

def scanValue : (depth : Nat) → Scanner Toml
  | 0 => scanScalar
  | depth + 1 => fun text =>
    match text with
    | '[' :: rest => scanArray (scanValue depth) rest
    | '\x7b' :: rest => scanTable (scanValue depth) rest
    | _ => scanScalar text

inductive Line where
  | blank
  | definition (content : Definition)
  | header (content : Header)

def Header.ofPath? (make : List String → String → Header) (path : List String) : Option Header :=
  path.getLast?.map (make path.dropLast)

def scanHeader : Scanner Header
  | '[' :: '[' :: rest => do
    let (path, rest) ← scanKey rest
    let (_, rest) ← mark ']' rest
    let (_, rest) ← mark ']' rest
    return (← Header.ofPath? .element path, rest)
  | '[' :: rest => do
    let (path, rest) ← scanKey rest
    let (_, rest) ← mark ']' rest
    return (← Header.ofPath? .single path, rest)
  | _ => none

/-- A whole line, or several lines if a value runs over them. -/
def scanLine : Scanner Line := fun text => do
  let start := skipSpaces text
  match start with
  | [] => return (.blank, [])
  | c :: _ =>
    if c = '#' ∨ c = '\n' then return (.blank, ← lineEnd start)
    else if c = '[' then do
      let (header, rest) ← scanHeader start
      return (.header header, ← lineEnd rest)
    else do
      let (definition, rest) ← scanDefinition (scanValue maxDepth) start
      return (.definition definition, ← lineEnd rest)

/-- Every line takes something of the text. -/
def scanLines (text : List Char) : Option (List Line) :=
  if text.isEmpty then some []
  else match scanLine text with
    | none => none
    | some (line, rest) =>
      if rest.length < text.length then (scanLines rest).map (line :: ·) else none
termination_by text.length

def sections : List Line → List Definition × List (Header × List Definition)
  | [] => ([], [])
  | line :: rest =>
    let (first, others) := sections rest
    match line with
    | .blank => (first, others)
    | .definition content => (content :: first, others)
    | .header content => ([], (content, first) :: others)

def build (lines : List Line) : Option Members := do
  let (first, others) := sections lines
  others.foldlM addSection (← defineAll first [])

/-- The table that a text makes up. A byte order mark may stand first. -/
def ofText? (text : String) : Option Toml := do
  let characters := match text.toList with
    | '\ufeff' :: rest => rest
    | characters => characters
  let lines ← scanLines (unifyLines characters)
  return table .opened (← build lines)

end DocumentReplication.Toml
