import DocumentReplication.Dictionary

/-!
TOML values. A table remembers how it was defined, because that decides what may still be added to
it.
-/

namespace DocumentReplication

inductive Toml.Origin where
  /-- Written in braces, and complete. -/
  | inlined
  /-- Opened by a header of its own. -/
  | opened
  /-- Only passed through by longer headers so far. -/
  | passed
  /-- Made by dotted keys. -/
  | dotted
deriving DecidableEq, Repr

inductive Toml where
  | text (value : String)
  | integer (value : Int)
  | bool (value : Bool)
  /-- A number with a fraction or an exponent, or one that is not finite, as written. -/
  | real (literal : String)
  | moment (literal : String)
  | array (elements : List Toml)
  | table (origin : Toml.Origin) (members : List (String × Toml))
  /-- Tables under headers that name their array. -/
  | tables (elements : List (List (String × Toml)))

namespace Toml

instance : Inhabited Toml := ⟨bool false⟩

abbrev Members := List (String × Toml)

open Dictionary (find place)

/-- Defines a dotted key below a table. Dotted keys extend only what dotted keys made, but they do
pass through what headers left open. -/
def define (value : Toml) : List String → Members → Option Members
  | [], _ => none
  | [name], members =>
    if (find name members).isNone then some (place name value members) else none
  | name :: next :: path, members =>
    let extend (origin : Origin) (inner : Members) : Option Members :=
      (define value (next :: path) inner).map fun inner => place name (table origin inner) members
    match find name members with
    | none => extend .dotted []
    | some (table .dotted inner) => extend .dotted inner
    | some (table .passed inner) => if path.isEmpty then none else extend .passed inner
    | some (tables elements) =>
      if path.isEmpty then none else do
        let inner ← define value (next :: path) (← elements.getLast?)
        return place name (tables (elements.dropLast ++ [inner])) members
    | some _ => none

/-- Changes the table at the end of the path of a header; of several tables the last one is
meant. -/
def within (change : Members → Option Members) : List String → Members → Option Members
  | [], members => change members
  | name :: path, members =>
    match find name members with
    | none => (within change path []).map fun inner => place name (table .passed inner) members
    | some (table .inlined _) => none
    | some (table origin inner) =>
      (within change path inner).map fun inner => place name (table origin inner) members
    | some (tables elements) => do
      let inner ← within change path (← elements.getLast?)
      return place name (tables (elements.dropLast ++ [inner])) members
    | some _ => none

abbrev Definition := List String × Toml

def defineAll (definitions : List Definition) (members : Members) : Option Members :=
  definitions.foldlM (fun members (path, value) => define value path members) members

def ofDefinitions (definitions : List Definition) : Option Toml :=
  (defineAll definitions []).map (table .inlined)

/-- A header opens one table, or adds a table to an array. -/
inductive Header where
  | single (parents : List String) (name : String)
  | element (parents : List String) (name : String)
deriving DecidableEq, Repr

/-- The definitions under a header. A table is opened only once, and never after dotted keys made
it. -/
def openTable (definitions : List Definition) (name : String) (members : Members) :
    Option Members := do
  let start ← match find name members with
    | none => some []
    | some (table .passed inner) => some inner
    | some _ => none
  return place name (table .opened (← defineAll definitions start)) members

def addElement (definitions : List Definition) (name : String) (members : Members) :
    Option Members := do
  let elements ← match find name members with
    | none => some []
    | some (tables elements) => some elements
    | some _ => none
  return place name (tables (elements ++ [← defineAll definitions []])) members

def addSection (members : Members) : Header × List Definition → Option Members
  | (.single parents name, definitions) => within (openTable definitions name) parents members
  | (.element parents name, definitions) => within (addElement definitions name) parents members

end Toml

end DocumentReplication
