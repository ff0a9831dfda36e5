import DocumentReplication.Text.Numeral
import DocumentReplication.Text.Split

/-!
Scanning characters: what a scanner takes from the front of a text, and what it leaves.

Lines end in line feeds here; a carriage return before a line feed is dropped first, and one that
stands alone is allowed nowhere.
-/

namespace DocumentReplication.Toml

abbrev Scanner (α : Type) := List Char → Option (α × List Char)

def unifyLines : List Char → List Char
  | '\r' :: '\n' :: rest => '\n' :: unifyLines rest
  | c :: rest => c :: unifyLines rest
  | [] => []

def mark (expected : Char) : Scanner Unit
  | c :: rest => if c = expected then some ((), rest) else none
  | [] => none

def isSpace (c : Char) : Bool := c == ' ' || c == '\t'

def skipSpaces (text : List Char) : List Char :=
  text.dropWhile isSpace

def isPlain (c : Char) : Bool :=
  c == '\t' || ' ' ≤ c && c ≤ '~' || '\u0080' ≤ c

def lineEnd (text : List Char) : Option (List Char) :=
  let rest := match skipSpaces text with
    | '#' :: rest => rest.dropWhile isPlain
    | rest => rest
  match rest with
  | [] => some []
  | c :: rest => if c = '\n' then some rest else none

/-- Skips spaces, the ends of lines and whole comments, starting inside a comment or not. -/
def skipLines : (inComment : Bool) → List Char → Option (List Char)
  | false, [] => some []
  | true, [] => none
  | inComment, c :: rest =>
    if c = '\n' then skipLines false rest
    else if inComment then if isPlain c then skipLines true rest else none
    else if isSpace c then skipLines false rest
    else if c = '#' then skipLines true rest
    else some (c :: rest)

end DocumentReplication.Toml
