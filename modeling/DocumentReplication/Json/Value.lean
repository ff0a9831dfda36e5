import DocumentReplication.Json.Text
import DocumentReplication.Text.Numeral

/-!
JSON documents and their compact form.
-/

namespace DocumentReplication

inductive Json where
  | null
  | bool (value : Bool)
  | integer (value : Int)
  /-- A number with a fraction or an exponent, or the negative zero, as written. -/
  | real (literal : Bytes)
  | text (pieces : List Json.Piece)
  | array (elements : List Json)
  | object (members : List (List Json.Piece × Json))

namespace Json

open Bytes (ascii asciiText)

instance : Inhabited Json := ⟨null⟩

def ofString (value : String) : Json :=
  text (Piece.ofString value)

def ofMembers (members : List (String × Json)) : Json :=
  object (members.map fun (name, value) => (Piece.ofString name, value))

def quoted (pieces : List Piece) : Bytes :=
  ascii '"' :: (pieces.flatMap Piece.write ++ [ascii '"'])

mutual

/-- The document without blanks. -/
def write : Json → Bytes
  | null => asciiText ['n', 'u', 'l', 'l']
  | bool true => asciiText ['t', 'r', 'u', 'e']
  | bool false => asciiText ['f', 'a', 'l', 's', 'e']
  | integer value => asciiText (Decimal.signed value)
  | real literal => literal
  | text pieces => quoted pieces
  | array elements => ascii '[' :: (writeElements elements ++ [ascii ']'])
  | object members => ascii '\x7b' :: (writeMembers members ++ [ascii '\x7d'])

def writeElements : List Json → Bytes
  | [] => []
  | [last] => write last
  | first :: rest => write first ++ ascii ',' :: writeElements rest

def writeMembers : List (List Piece × Json) → Bytes
  | [] => []
  | [(key, value)] => quoted key ++ ascii ':' :: write value
  | (key, value) :: rest =>
    quoted key ++ ascii ':' :: (write value ++ ascii ',' :: writeMembers rest)

end

mutual

/-- Whether the texts in a document nobody looks at are free of raw control characters. -/
def isSkippable : Json → Bool
  | text pieces => Piece.isSkippable pieces
  | array elements => elementsSkippable elements
  | object members => membersSkippable members
  | _ => true

def elementsSkippable : List Json → Bool
  | [] => true
  | first :: rest => isSkippable first && elementsSkippable rest

def membersSkippable : List (List Piece × Json) → Bool
  | [] => true
  | (key, value) :: rest => Piece.isSkippable key && isSkippable value && membersSkippable rest

end

end Json

end DocumentReplication
