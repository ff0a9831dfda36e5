/-!
Cutting a text at a separator, once or everywhere, and trimming the blanks at its ends. Blank
characters are those with the Unicode property White_Space.
-/

namespace DocumentReplication.Text

def isBlank (c : Char) : Bool :=
  ('\t' ≤ c && c ≤ '\r') || c == ' ' || c == '\u0085' || c == '\u00a0' || c == '\u1680' ||
  ('\u2000' ≤ c && c ≤ '\u200a') || c == '\u2028' || c == '\u2029' || c == '\u202f' ||
  c == '\u205f' || c == '\u3000'

def trimStart (text : List Char) : List Char :=
  text.dropWhile isBlank

def trimEnd (text : List Char) : List Char :=
  (text.reverse.dropWhile isBlank).reverse

def trim (text : List Char) : List Char :=
  trimEnd (trimStart text)

def cut? (separator : Char) : List Char → Option (List Char × List Char)
  | [] => none
  | c :: rest =>
    if c = separator then some ([], rest)
    else (cut? separator rest).map fun (before, after) => (c :: before, after)

theorem cut?_eq_some_iff {separator : Char} {text before after : List Char} :
    cut? separator text = some (before, after) ↔
      text = before ++ separator :: after ∧ separator ∉ before := by
  induction text generalizing before with
  | nil => simp [cut?]
  | cons c rest ih =>
      by_cases same : c = separator
      · subst same
        cases before <;> simp [cut?, eq_comm]
        intro equal
        simp [equal]
      · simp only [cut?, if_neg same, Option.map_eq_some_iff, Prod.exists, Prod.mk.injEq]
        constructor
        · rintro ⟨first, last, found, rfl, rfl⟩
          obtain ⟨rfl, absent⟩ := ih.mp found
          exact ⟨rfl, by simp [absent, Ne.symm same]⟩
        · rintro ⟨text, absent⟩
          cases before with
          | nil => simp [same] at text
          | cons head tail =>
              simp only [List.cons_append, List.cons.injEq] at text
              obtain ⟨rfl, rfl⟩ := text
              exact ⟨tail, after, ih.mpr ⟨rfl, fun member => absent (List.mem_cons_of_mem _ member)⟩,
                rfl, rfl⟩

def pieces (separator : Char) : List Char → List (List Char)
  | [] => [[]]
  | c :: rest =>
    if c = separator then [] :: pieces separator rest
    else match pieces separator rest with
      | [] => [[c]]
      | first :: others => (c :: first) :: others

theorem pieces_ne_nil (separator : Char) (text : List Char) : pieces separator text ≠ [] := by
  cases text with
  | nil => simp [pieces]
  | cons c rest =>
      unfold pieces
      split
      · simp
      · split <;> simp

theorem pieces_of_not_mem {separator : Char} {text : List Char} (absent : separator ∉ text) :
    pieces separator text = [text] := by
  induction text with
  | nil => rfl
  | cons c rest ih =>
      simp only [List.mem_cons, not_or] at absent
      simp [pieces, Ne.symm absent.1, ih absent.2]

theorem pieces_append_separator {separator : Char} {first : List Char} (absent : separator ∉ first)
    (rest : List Char) :
    pieces separator (first ++ separator :: rest) = first :: pieces separator rest := by
  induction first with
  | nil => simp [pieces]
  | cons c tail ih =>
      simp only [List.mem_cons, not_or] at absent
      simp [pieces, Ne.symm absent.1, ih absent.2]

end DocumentReplication.Text
