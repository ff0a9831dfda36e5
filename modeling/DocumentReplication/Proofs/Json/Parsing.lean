import DocumentReplication.Json.Parsing
import DocumentReplication.Proofs.Json.Text

/-!
Documents are read back from their compact form, whatever they hold and however deep they nest. A
number has to be followed by something that cannot go on with it, and inside a document it always is.
-/

namespace DocumentReplication.Json

open Bytes (ascii asciiText characters)

variable {rest left : Bytes}

namespace Piece

/-- Whether a piece stands for itself between quotes. -/
def Writable : Piece → Prop
  | raw value => value ≠ ascii '"' ∧ value ≠ ascii '\\'
  | unit value => value < 65536

theorem ofHexadecimal?_hexadecimal {value : Nat} (small : value < 65536) :
    ofHexadecimal? (asciiText (hexadecimal value)) = some value := by
  have digit : ∀ digit, digit < 16 → Hexadecimal.digitValue?
      (Char.ofNat (ascii (Hexadecimal.digitChar digit)).toNat) = some digit := by decide
  simp only [ofHexadecimal?, asciiText, hexadecimal, List.map_cons, List.map_nil, List.foldl_cons,
    List.foldl_nil, digit _ (show value / 4096 < 16 by omega),
    digit _ (show value / 256 % 16 < 16 by omega), digit _ (show value / 16 % 16 < 16 by omega),
    digit _ (show value % 16 < 16 by omega), Option.bind_eq_bind, Option.bind_some, Option.pure_def,
    Option.some.injEq]
  omega

theorem ofLetter?_letter? {value : Nat} {letter : Char} (known : letter? value = some letter) :
    ofLetter? (ascii letter) = some value := by
  unfold letter? at known
  repeat' split at known
  all_goals first
    | contradiction
    | cases known
      subst value
      decide

theorem body?_quote (gathered : List Piece) (rest : Bytes) :
    body? gathered (ascii '"' :: rest) = some (gathered.reverse, rest) := by
  rw [body?.eq_def]
  exact if_pos rfl

theorem body?_write {piece : Piece} (writable : piece.Writable) (gathered : List Piece)
    (rest : Bytes) : body? gathered (piece.write ++ rest) = body? (piece :: gathered) rest := by
  cases piece with
  | raw value =>
      rw [write, List.singleton_append, body?.eq_def]
      simp only [if_neg writable.1, if_neg writable.2]
  | unit value =>
      have quote : ascii '\\' ≠ ascii '"' := by decide
      rw [write]
      cases known : letter? value with
      | some letter =>
          simp only [asciiText, List.map_cons, List.map_nil, List.cons_append, List.nil_append]
          rw [body?.eq_def]
          simp only [if_neg quote, if_true, ofLetter?_letter? known]
      | none =>
          have unknown : ofLetter? (ascii 'u') = none := by decide
          have digits := ofHexadecimal?_hexadecimal writable
          simp only [asciiText, hexadecimal, List.map_cons, List.map_nil] at digits
          simp only [asciiText, hexadecimal, List.map_cons, List.map_nil, List.cons_append,
            List.nil_append]
          rw [body?.eq_def]
          simp only [if_neg quote, if_true, unknown, digits]

theorem body?_flatMap_write {pieces : List Piece} (writable : ∀ piece ∈ pieces, piece.Writable)
    (gathered : List Piece) (rest : Bytes) :
    body? gathered (pieces.flatMap write ++ ascii '"' :: rest) =
      some (gathered.reverse ++ pieces, rest) := by
  induction pieces generalizing gathered with
  | nil =>
      rw [List.append_nil]
      exact body?_quote gathered rest
  | cons piece others ih =>
      rw [List.flatMap_cons, List.append_assoc, body?_write (writable piece List.mem_cons_self),
        ih fun other member => writable other (List.mem_cons_of_mem _ member)]
      simp

theorem writable_ofChar {c : Char} {piece : Piece} (member : piece ∈ ofChar c) :
    piece.Writable := by
  unfold ofChar at member
  split at member
  · rename_i escaped
    obtain rfl := List.mem_singleton.mp member
    have small : c.toNat < 128 := by
      rcases escaped with control | rfl | rfl
      · omega
      · decide
      · decide
    exact Nat.lt_trans small (by decide)
  · rename_i plain
    simp only [not_or] at plain
    obtain ⟨byte, there, rfl⟩ := List.mem_map.mp member
    rw [Text.utf8_singleton] at there
    exact ⟨Text.ne_of_mem_utf8EncodeChar (by decide) plain.2.1 there,
      Text.ne_of_mem_utf8EncodeChar (by decide) plain.2.2 there⟩

theorem writable_ofString {value : String} {piece : Piece} (member : piece ∈ ofString value) :
    piece.Writable := by
  obtain ⟨c, -, of⟩ := List.mem_flatMap.mp member
  exact writable_ofChar of

end Piece

theorem asciiText_cons (c : Char) (text : List Char) :
    asciiText (c :: text) = ascii c :: asciiText text := rfl

/-- What may follow a document inside of another one, or at the end of it. -/
def Separated (rest : Bytes) : Prop :=
  ∀ first ∈ rest.head?, first = ascii ',' ∨ first = ascii ']' ∨ first = ascii '\x7d'

theorem Separated.takeWhile (separated : Separated rest) :
    rest.takeWhile isDigit = [] ∧ rest.dropWhile isDigit = rest := by
  cases rest with
  | nil => exact ⟨rfl, rfl⟩
  | cons first others =>
      have other : isDigit first = false := by
        rcases separated first rfl with rfl | rfl | rfl <;> decide
      simp [other]

theorem Separated.fraction? (separated : Separated rest) : fraction? rest = some ([], rest) := by
  cases rest with
  | nil => rfl
  | cons first others =>
      have other : first ≠ ascii '.' := by
        rcases separated first rfl with rfl | rfl | rfl <;> decide
      rw [Json.fraction?, if_neg other]

theorem Separated.exponent? (separated : Separated rest) : exponent? rest = some ([], rest) := by
  cases rest with
  | nil => rfl
  | cons first others =>
      have other : ¬(first = ascii 'e' ∨ first = ascii 'E') := by
        rcases separated first rfl with rfl | rfl | rfl <;> decide
      cases others with
      | nil => rw [Json.exponent?, if_neg other]
      | cons second others => rw [Json.exponent?, if_neg other]

theorem isDigit_ascii {c : Char} (digit : Decimal.isDigit c = true) : isDigit (ascii c) = true := by
  simp only [Decimal.isDigit, Bool.and_eq_true, decide_eq_true_eq, Char.le_def,
    UInt32.le_iff_toNat_le] at digit
  have lower : 48 ≤ c.toNat := digit.1
  have upper : c.toNat ≤ 57 := digit.2
  have exact : (ascii c).toNat = c.toNat := UInt8.toNat_ofNat_of_lt' (by
    simp only [UInt8.size]
    omega)
  have zero : (ascii '0').toNat = 48 := rfl
  have nine : (ascii '9').toNat = 57 := rfl
  simp only [isDigit, Bool.and_eq_true, decide_eq_true_eq, UInt8.le_iff_toNat_le, exact, zero, nine]
  exact ⟨lower, upper⟩

/-- Only zero is written with a zero in front. -/
theorem digits_cases (number : Nat) :
    Decimal.digits number = ['0'] ∨
      ∃ first others, Decimal.digits number = first :: others ∧ ascii first ≠ ascii '0' := by
  rw [Decimal.digits]
  split
  · rename_i small
    have each : ∀ digit, digit < 10 → Decimal.digitChar digit = '0' ∨
        ascii (Decimal.digitChar digit) ≠ ascii '0' := by decide
    rcases each number small with zero | other
    · exact .inl (by rw [zero])
    · exact .inr ⟨_, _, rfl, other⟩
  · rename_i large
    right
    rcases digits_cases (number / 10) with zero | ⟨first, others, same, other⟩
    · have back := Decimal.value_digits (number / 10)
      rw [zero] at back
      have nothing : Decimal.value ['0'] = 0 := rfl
      omega
    · exact ⟨first, others ++ [_], by rw [same, List.cons_append], other⟩
termination_by number

theorem all_isDigit_asciiText {digits : List Char} (all : digits.all Decimal.isDigit = true) :
    ∀ digit ∈ asciiText digits, isDigit digit = true := by
  intro digit member
  obtain ⟨c, there, rfl⟩ := List.mem_map.mp member
  exact isDigit_ascii (List.all_eq_true.mp all c there)

theorem whole?_digits (separated : Separated rest) (number : Nat) :
    whole? (asciiText (Decimal.digits number) ++ rest) =
      some (asciiText (Decimal.digits number), rest) := by
  have all := all_isDigit_asciiText (Decimal.all_isDigit_digits number)
  rcases digits_cases number with zero | ⟨first, others, same, other⟩
  · rw [zero, asciiText_cons, List.cons_append, whole?, if_pos rfl]
    rfl
  · rw [same, asciiText_cons] at all ⊢
    have leading := all _ List.mem_cons_self
    have following : ∀ digit ∈ asciiText others, isDigit digit = true :=
      fun digit member => all digit (List.mem_cons_of_mem _ member)
    obtain ⟨taken, dropped⟩ := separated.takeWhile
    rw [List.cons_append, whole?, if_neg other, if_pos leading,
      List.takeWhile_append_of_pos following, List.dropWhile_append_of_pos following, taken, dropped,
      List.append_nil]

theorem unsigned?_digits (separated : Separated rest) {negative : Bool} {number : Nat}
    (proper : negative = true → number ≠ 0) :
    unsigned? negative (asciiText (Decimal.digits number) ++ rest) =
      some (integer (if negative then -(number : Int) else number), rest) := by
  have back : Decimal.value (characters (asciiText (Decimal.digits number))) = number := by
    rw [Bytes.characters_asciiText, Decimal.value_digits]
    intro c member
    have digit := List.all_eq_true.mp (Decimal.all_isDigit_digits number) c member
    simp only [Decimal.isDigit, Bool.and_eq_true, decide_eq_true_eq, Char.le_def,
      UInt32.le_iff_toNat_le] at digit
    have upper : c.toNat ≤ 57 := digit.2
    omega
  have kept : (negative && number == 0) = false := by
    cases negative with
    | false => rfl
    | true => simpa using proper rfl
  simp only [unsigned?, whole?_digits separated, separated.fraction?, separated.exponent?,
    Option.bind_eq_bind, Option.bind_some, Option.pure_def, back, List.isEmpty_nil, kept, Bool.not_false,
    Bool.and_self, if_true]

theorem number?_signed (separated : Separated rest) (value : Int) :
    number? (asciiText (Decimal.signed value) ++ rest) = some (integer value, rest) := by
  cases value with
  | negSucc size =>
      have read := @unsigned?_digits _ separated true (size + 1) fun _ => Nat.succ_ne_zero size
      rw [Decimal.signed, asciiText_cons, List.cons_append, number?, if_pos rfl]
      exact read
  | ofNat size =>
      have read := @unsigned?_digits _ separated false size fun minus => absurd minus Bool.false_ne_true
      rw [Decimal.signed]
      obtain ⟨first, others, same⟩ := List.exists_cons_of_ne_nil (Decimal.digits_ne_nil size)
      have digit := List.all_eq_true.mp (Decimal.all_isDigit_digits size) first
        (same ▸ List.mem_cons_self)
      have plain : ascii first ≠ ascii '-' := fun minus => by
        have wrong := isDigit_ascii digit
        rw [minus] at wrong
        contradiction
      rw [same, asciiText_cons, List.cons_append] at read ⊢
      rw [number?, if_neg plain]
      exact read

theorem token?_quote {pieces : List Piece} (writable : ∀ piece ∈ pieces, piece.Writable)
    (rest : Bytes) :
    token? (ascii '"') (pieces.flatMap Piece.write ++ ascii '"' :: rest) =
      some (.text pieces, rest) := by
  have body := Piece.body?_flatMap_write writable [] rest
  rw [List.reverse_nil, List.nil_append] at body
  exact congrArg (Option.map fun read => (Token.text read.1, read.2)) body

theorem token?_word {first : UInt8} {others : Bytes} {value : Json}
    (known : ∀ rest, token? first (others ++ rest) =
      (word? (first :: others) value (first :: others ++ rest)).map fun (value, rest) =>
        (.atom value, rest)) (rest : Bytes) :
    token? first (others ++ rest) = some (.atom value, rest) := by
  have starts : (first :: others).isPrefixOf (first :: others ++ rest) = true :=
    List.isPrefixOf_iff_prefix.mpr (List.prefix_append ..)
  rw [known, word?, if_pos starts, List.drop_left]
  rfl

theorem token?_signed (separated : Separated rest) (value : Int) :
    ∃ first others, asciiText (Decimal.signed value) = first :: others ∧ isSpace first = false ∧
      first ≠ ascii ']' ∧ token? first (others ++ rest) = some (.atom (integer value), rest) := by
  have leading : ∃ c others, Decimal.signed value = c :: others ∧
      (c = '-' ∨ Decimal.isDigit c = true) := by
    cases value with
    | negSucc size => exact ⟨_, _, rfl, .inl rfl⟩
    | ofNat size =>
        obtain ⟨c, others, same⟩ := List.exists_cons_of_ne_nil (Decimal.digits_ne_nil size)
        exact ⟨c, others, same, .inr (List.all_eq_true.mp (Decimal.all_isDigit_digits size) c
          (same ▸ List.mem_cons_self))⟩
  obtain ⟨c, others, same, kind⟩ := leading
  have apart : ∀ other ∈ [' ', '\t', '\n', '\r', '[', ']', '\x7b', '\x7d', ':', ',', '"', 'n', 't', 'f'],
      ascii c ≠ ascii other := by
    intro other member equal
    have wrong : ascii other = ascii '-' ∨ isDigit (ascii other) = true := by
      rcases kind with rfl | digit
      · exact .inl equal.symm
      · exact .inr (equal ▸ isDigit_ascii digit)
    revert wrong
    simp only [List.mem_cons, List.not_mem_nil, or_false] at member
    rcases member with rfl | rfl | rfl | rfl | rfl | rfl | rfl | rfl | rfl | rfl | rfl | rfl | rfl | rfl <;>
      decide
  have read := number?_signed separated value
  rw [same, asciiText_cons, List.cons_append] at read
  refine ⟨ascii c, asciiText others, by rw [same, asciiText_cons], ?_, apart ']' (by simp), ?_⟩
  · simp [isSpace, apart]
  · simp only [token?, if_neg (apart '[' (by simp)), if_neg (apart ']' (by simp)),
      if_neg (apart '\x7b' (by simp)), if_neg (apart '\x7d' (by simp)), if_neg (apart ':' (by simp)),
      if_neg (apart ',' (by simp)), if_neg (apart '"' (by simp)), if_neg (apart 'n' (by simp)),
      if_neg (apart 't' (by simp)), if_neg (apart 'f' (by simp)), read, Option.map_some]

mutual

/-- Whether a document has only whole numbers, and texts that can stand between quotes. -/
def Written : Json → Prop
  | real _ => False
  | text pieces => ∀ piece ∈ pieces, piece.Writable
  | array elements => ElementsWritten elements
  | object members => MembersWritten members
  | _ => True

def ElementsWritten : List Json → Prop
  | [] => True
  | first :: rest => Written first ∧ ElementsWritten rest

def MembersWritten : List (List Piece × Json) → Prop
  | [] => True
  | (key, value) :: rest =>
    (∀ piece ∈ key, piece.Writable) ∧ Written value ∧ MembersWritten rest

end

theorem written_ofString (value : String) : (ofString value).Written :=
  fun _ => Piece.writable_ofString

theorem membersWritten_map {members : List (String × Json)}
    (values : ∀ member ∈ members, member.2.Written) :
    MembersWritten (members.map fun (name, value) => (Piece.ofString name, value)) := by
  induction members with
  | nil => trivial
  | cons first others ih =>
      exact ⟨fun _ => Piece.writable_ofString, values first List.mem_cons_self,
        ih fun member there => values member (List.mem_cons_of_mem _ there)⟩

theorem written_ofMembers {members : List (String × Json)}
    (values : ∀ member ∈ members, member.2.Written) : (ofMembers members).Written :=
  membersWritten_map values

theorem run_cons {first : UInt8} (apart : isSpace first = false) (expected : Expectation)
    (others : Bytes) :
    run expected (first :: others) = (token? first others).bind fun (token, left) =>
      (expected.next token).bind fun after => run after left := by
  rw [run, if_neg (by rw [apart]; exact Bool.false_ne_true)]
  split
  · rename_i nothing
    rw [nothing, Option.bind_none]
  · rename_i token left found
    rw [found]
    cases after : expected.next token <;> simp [after]

theorem run_token {expected after : Expectation} {first : UInt8} {bytes : Bytes} {token : Token}
    (apart : isSpace first = false) (read : token? first bytes = some (token, left))
    (next : expected.next token = some after) : run expected (first :: bytes) = run after left := by
  simp only [run_cons apart, read, Option.bind_some, next]

theorem run_quoted {expected after : Expectation} {pieces : List Piece}
    (writable : ∀ piece ∈ pieces, piece.Writable) (next : expected.next (.text pieces) = some after)
    (rest : Bytes) : run expected (quoted pieces ++ rest) = run after rest := by
  have apart : isSpace (ascii '"') = false := by decide
  rw [quoted, List.cons_append, List.append_assoc, List.singleton_append]
  exact run_token apart (token?_quote writable rest) next

/-- A mark that stands alone is a token of its own. -/
theorem run_mark {expected after : Expectation} {mark : Char} {token : Token}
    (apart : isSpace (ascii mark) = false)
    (read : ∀ rest, token? (ascii mark) rest = some (token, rest))
    (next : expected.next token = some after) (rest : Bytes) :
    run expected (ascii mark :: rest) = run after rest :=
  run_token apart (read rest) next

theorem separated_nil : Separated [] := nofun

theorem separated_mark {mark : UInt8}
    (known : mark = ascii ',' ∨ mark = ascii ']' ∨ mark = ascii '\x7d') (rest : Bytes) :
    Separated (mark :: rest) := by
  intro first same
  obtain rfl : mark = first := Option.some.inj same
  exact known

theorem eq_of_token?_closeArray {first : UInt8} {bytes : Bytes}
    (found : token? first bytes = some (.closeArray, left)) : first = ascii ']' := by
  simp only [token?] at found
  split at found
  · cases found
  · split at found
    · assumption
    · repeat' split at found
      all_goals simp at found

/-- An array that is not empty goes on with its first element. -/
theorem run_firstElement {first : UInt8} {others : Bytes} (holes : List Hole)
    (apart : isSpace first = false) (element : first ≠ ascii ']') :
    run (.firstElement holes) (first :: others) =
      run (.document (.element [] :: holes)) (first :: others) := by
  rw [run_cons apart, run_cons apart]
  cases found : token? first others with
  | none => rfl
  | some read =>
      obtain ⟨token, left⟩ := read
      cases token with
      | closeArray => exact absurd (eq_of_token?_closeArray found) element
      | _ => rfl

theorem write_head {json : Json} (written : json.Written) :
    ∃ first others, json.write = first :: others ∧ isSpace first = false ∧ first ≠ ascii ']' := by
  match json with
  | null | bool true | bool false => exact ⟨_, _, rfl, by decide, by decide⟩
  | text pieces => exact ⟨_, _, by rw [write, quoted], by decide, by decide⟩
  | array _ | object _ => exact ⟨_, _, by rw [write], by decide, by decide⟩
  | integer value =>
      obtain ⟨first, others, same, apart, element, -⟩ := token?_signed separated_nil value
      exact ⟨first, others, by rw [write, same], apart, element⟩
  | real literal => exact written.elim

theorem writeElements_head {json : Json} (written : json.Written) (others : List Json) :
    ∃ first left, writeElements (json :: others) = first :: left ∧ isSpace first = false ∧
      first ≠ ascii ']' := by
  obtain ⟨first, left, same, apart, element⟩ := write_head written
  cases others with
  | nil => exact ⟨first, left, by rw [writeElements, same], apart, element⟩
  | cons second others =>
      refine ⟨first, left ++ ascii ',' :: writeElements (second :: others), ?_, apart, element⟩
      rw [writeElements, same, List.cons_append]
      exact List.cons_ne_nil second others

mutual

/-- What stands for a document in its compact form is read as that document. -/
theorem run_write (json : Json) (written : json.Written) (holes : List Hole) {rest : Bytes}
    (separated : Separated rest) :
    run (.document holes) (json.write ++ rest) = run (.fill json holes) rest := by
  match json with
  | null => exact run_token rfl (token?_word (fun _ => rfl) rest) rfl
  | bool true => exact run_token rfl (token?_word (fun _ => rfl) rest) rfl
  | bool false => exact run_token rfl (token?_word (fun _ => rfl) rest) rfl
  | integer value =>
      obtain ⟨first, others, same, apart, -, read⟩ := token?_signed separated value
      rw [write, same, List.cons_append]
      exact run_token apart read rfl
  | real literal => exact written.elim
  | text pieces => exact run_quoted written rfl rest
  | array [] =>
      rw [write, writeElements, List.nil_append, List.cons_append, List.singleton_append,
        run_mark (by decide) (fun _ => rfl) rfl]
      exact run_mark (by decide) (fun _ => rfl) rfl rest
  | array (first :: others) =>
      have elements := run_writeElements (first :: others) written (List.cons_ne_nil _ _) [] holes rest
      obtain ⟨start, left, head, apart, element⟩ := writeElements_head written.1 others
      rw [write, List.cons_append, List.append_assoc, List.singleton_append,
        run_mark (by decide) (fun _ => rfl) rfl]
      rw [head, List.cons_append] at elements ⊢
      rw [run_firstElement holes apart element]
      exact elements
  | object [] =>
      rw [write, writeMembers, List.nil_append, List.cons_append, List.singleton_append,
        run_mark (by decide) (fun _ => rfl) rfl]
      exact run_mark (by decide) (fun _ => rfl) rfl rest
  | object (first :: others) =>
      rw [write, List.cons_append, List.append_assoc, List.singleton_append,
        run_mark (by decide) (fun _ => rfl) rfl]
      exact run_writeMembers (first :: others) written (List.cons_ne_nil _ _) [] holes (fun _ => rfl) rest

theorem run_writeElements (elements : List Json) (written : ElementsWritten elements)
    (nonempty : elements ≠ []) (before : List Json) (holes : List Hole) (rest : Bytes) :
    run (.document (.element before :: holes)) (writeElements elements ++ ascii ']' :: rest) =
      run (.fill (.array (before.reverse ++ elements)) holes) rest := by
  match elements with
  | [] => contradiction
  | [last] =>
      rw [writeElements, run_write last written.1 _ (separated_mark (.inr (.inl rfl)) rest),
        ← List.reverse_cons]
      exact run_mark (by decide) (fun _ => rfl) rfl rest
  | first :: second :: others =>
      have more := run_writeElements (second :: others) written.2 (List.cons_ne_nil _ _)
        (first :: before) holes rest
      rw [List.reverse_cons, List.append_assoc, List.singleton_append] at more
      rw [writeElements, List.append_assoc, List.cons_append,
        run_write first written.1 _ (separated_mark (.inl rfl) _), ← more]
      · exact run_mark (by decide) (fun _ => rfl) rfl _
      · simp

theorem run_writeMembers (members : List (List Piece × Json)) (written : MembersWritten members)
    (nonempty : members ≠ []) (before : List (List Piece × Json)) (holes : List Hole)
    {expected : Expectation}
    (keyed : ∀ key, expected.next (.text key) = some (.separator before key holes)) (rest : Bytes) :
    run expected (writeMembers members ++ ascii '\x7d' :: rest) =
      run (.fill (.object (before.reverse ++ members)) holes) rest := by
  match members with
  | [] => contradiction
  | [(key, value)] =>
      rw [writeMembers, List.append_assoc, List.cons_append, run_quoted written.1 (keyed key),
        run_mark (by decide) (fun _ => rfl) rfl,
        run_write value written.2.1 _ (separated_mark (.inr (.inr rfl)) rest),
        ← List.reverse_cons]
      exact run_mark (by decide) (fun _ => rfl) rfl rest
  | (key, value) :: second :: others =>
      have onward : ∀ other, Expectation.next (.nextKey ((key, value) :: before) holes)
          (.text other) = some (.separator ((key, value) :: before) other holes) := fun _ => rfl
      have more := run_writeMembers (second :: others) written.2.2 (List.cons_ne_nil _ _)
        ((key, value) :: before) holes onward rest
      rw [List.reverse_cons, List.append_assoc, List.singleton_append] at more
      rw [writeMembers, List.append_assoc, List.cons_append, List.append_assoc, List.cons_append,
        run_quoted written.1 (keyed key), run_mark (by decide) (fun _ => rfl) rfl,
        run_write value written.2.1 _ (separated_mark (.inl rfl) _), ← more]
      · exact run_mark (by decide) (fun _ => rfl) rfl _
      · simp

end

/-- A document is read back from its compact form. -/
theorem parse?_write {json : Json} (written : json.Written) : parse? json.write = some json := by
  have whole := run_write json written [] separated_nil
  rw [List.append_nil] at whole
  rw [parse?, whole, Expectation.fill, run]

end DocumentReplication.Json
