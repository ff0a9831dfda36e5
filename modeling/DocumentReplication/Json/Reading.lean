import DocumentReplication.Json.Parsing

/-!
Typed reading of JSON documents. A record is an object, whose members may stand in any order, or an
array of all its fields in order. A member nobody asks for is skipped, but one that is asked for may
occur only once.
-/

namespace DocumentReplication.Json

/-- A field of a record. One that is `optional` may be missing at the end of an array. -/
structure FieldName where
  name : String
  optional : Bool := false

def toString? : Json → Option String
  | text pieces => Piece.toString? pieces
  | _ => none

def toInt? : Json → Option Int
  | integer value => some value
  | _ => none

def toIntBetween? (low high : Int) (json : Json) : Option Int := do
  let value ← json.toInt?
  if low ≤ value ∧ value ≤ high then some value else none

def toSigned64? (json : Json) : Option Int64 :=
  (json.toIntBetween? (-0x8000000000000000) 0x7fffffffffffffff).map Int64.ofInt

def toNatBelow? (bound : Nat) (json : Json) : Option Nat :=
  (json.toIntBetween? 0 (bound - 1)).map Int.toNat

def toBool? : Json → Option Bool
  | bool value => some value
  | _ => none

def toList? : Json → Option (List Json)
  | array elements => some elements
  | _ => none

def nullable {α : Type} (read : Json → Option α) : Json → Option (Option α)
  | null => some none
  | json => (read json).map some

/-- Octets are an array of numbers, or a text taken as its octets. -/
def toBytes? : Json → Option Bytes
  | array elements => elements.mapM fun element => (element.toNatBelow? 256).map UInt8.ofNat
  | text pieces => some (Piece.toOctets pieces)
  | _ => none

/-- Sorts the members of an object into the values found so far under the names. -/
def gather (names : List String) (found : List (String × Json)) :
    List (List Piece × Json) → Option (List (String × Json))
  | [] => some found
  | (key, value) :: rest => do
    let key ← Piece.toString? key
    if names.contains key then
      if found.any (·.1 == key) then none else gather names ((key, value) :: found) rest
    else if value.isSkippable then gather names found rest
    else none

/-- The elements of an array as the values of fields; only optional ones may be missing. -/
def align : List FieldName → List Json → Option (List (Option Json))
  | [], [] => some []
  | [], _ :: _ => none
  | field :: fields, [] => if field.optional then (align fields []).map (none :: ·) else none
  | _ :: fields, value :: values => (align fields values).map (some value :: ·)

def toFields? (fields : List FieldName) : Json → Option (List (Option Json))
  | object members => do
    let found ← gather (fields.map (·.name)) [] members
    return fields.map fun field => found.lookup field.name
  | array elements => align fields elements
  | _ => none

def required {α : Type} (read : Json → Option α) : Option Json → Option α
  | some value => read value
  | none => none

/-- A field that may be missing or null. -/
def optional {α : Type} (read : Json → Option α) : Option Json → Option (Option α)
  | some value => nullable read value
  | none => some none

/-- A variant: a name alone, or an object with the name as its only key. -/
def toVariant? : Json → Option (String × Option Json)
  | text pieces => (Piece.toString? pieces).map fun name => (name, none)
  | object [(key, value)] => (Piece.toString? key).map fun name => (name, some value)
  | _ => none

end DocumentReplication.Json
