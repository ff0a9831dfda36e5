import DocumentReplication.Text.CaseTable

/-!
Lowercase forms of texts, by the Unicode default case conversion. One letter looks at its
neighbours: a capital sigma that ends a word becomes `ς`, any other becomes `σ`.
-/

namespace DocumentReplication.Text

def inRanges (ranges : List (Nat × Nat)) (c : Char) : Bool :=
  ranges.any fun (first, last) => first ≤ c.toNat && c.toNat ≤ last

def isCased (c : Char) : Bool := inRanges CaseTable.cased c

def isCaseIgnorable (c : Char) : Bool := inRanges CaseTable.ignorable c

def lowerChar (c : Char) : List Char :=
  if c.toNat < 128 then [c.toLower]
  else if c = 'İ' then ['i', '\u0307']
  else
    let holds (row : Nat × Nat × Nat × Int) : Bool :=
      row.1 ≤ c.toNat && c.toNat ≤ row.2.1 && (c.toNat - row.1) % row.2.2.1 == 0
    match CaseTable.lowercase.find? holds with
    | some (_, _, _, shift) => [Char.ofNat (c.toNat + shift).toNat]
    | none => [c]

/-- Whether the nearest character that counts for case has case. -/
def reachesCased (text : List Char) : Bool :=
  match text.dropWhile isCaseIgnorable with
  | c :: _ => isCased c
  | [] => false

/-- `before` holds the characters already passed, nearest first. -/
def lowerFrom (before : List Char) : List Char → List Char
  | [] => []
  | c :: rest =>
    let lowered :=
      if c = 'Σ' then
        if reachesCased before && !reachesCased rest then ['ς'] else ['σ']
      else lowerChar c
    lowered ++ lowerFrom (c :: before) rest

def lowercase (text : String) : String :=
  String.ofList (lowerFrom [] text.toList)

end DocumentReplication.Text
