import Mathlib.Algebra.GroupWithZero.Nat
import Mathlib.Algebra.Order.BigOperators.Group.List
import Mathlib.Algebra.Order.Group.Nat
import Mathlib.Data.List.Nodup
import DocumentReplication.Proofs.ChangeVector.Join
import DocumentReplication.Proofs.ChangeVector.Text
import DocumentReplication.Proofs.Time.InternetDate

/-!
How many octets the text of a vector takes. An entry is never written longer than it was read, and no
instance has two entries, so a vector made of some entries takes no more than all of these together.
-/

namespace DocumentReplication

namespace Text

/-- How many octets characters take. -/
def width (text : List Char) : Nat :=
  (text.map Char.utf8Size).sum

variable {text first last : List Char}

@[simp] theorem width_nil : width [] = 0 := rfl

@[simp] theorem width_cons (c : Char) (text : List Char) :
    width (c :: text) = c.utf8Size + width text := rfl

@[simp] theorem width_append (first last : List Char) :
    width (first ++ last) = width first + width last := by
  simp [width]

theorem length_le_width (text : List Char) : text.length ≤ width text := by
  induction text with
  | nil => exact Nat.le_refl 0
  | cons c rest ih =>
      have positive := c.utf8Size_pos
      rw [List.length_cons, width_cons]
      omega

theorem width_le_of_sublist (part : first.Sublist last) : width first ≤ width last :=
  (part.map _).sum_le_sum fun _ _ => Nat.zero_le _

theorem width_trim_le (text : List Char) : width (trim text) ≤ width text := by
  apply width_le_of_sublist
  have ends : (trimEnd (trimStart text)).Sublist (trimStart text) := by
    obtain ⟨blanks, whole⟩ := trimEnd_prefix (trimStart text)
    have front := List.sublist_append_left (trimEnd (trimStart text)) blanks
    rwa [← whole] at front
  exact ends.trans (List.dropWhile_sublist _)

theorem sum_width_pieces_le (separator : Char) (text : List Char) :
    ((pieces separator text).map width).sum ≤ width text := by
  induction text with
  | nil => exact Nat.le_refl 0
  | cons c rest ih =>
      rw [pieces, width_cons]
      split
      · rw [List.map_cons, List.sum_cons, width_nil]
        omega
      · split
        · rename_i nothing
          exact absurd nothing (pieces_ne_nil separator rest)
        · rename_i head others found
          rw [found, List.map_cons, List.sum_cons] at ih
          rw [List.map_cons, List.sum_cons, width_cons]
          omega

theorem length_utf8 (text : String) : (utf8 text).length = width text.toList := by
  have octets (chars : List Char) : (String.ofList chars).utf8ByteSize = width chars := by
    induction chars with
    | nil => rfl
    | cons c rest ih =>
        have split : String.ofList ([c] ++ rest) = String.singleton c ++ String.ofList rest :=
          String.ofList_append
        rw [List.singleton_append] at split
        rw [split, String.utf8ByteSize_append, String.utf8ByteSize_singleton, ih, width_cons]
  rw [← octets, String.ofList_toList]
  simp [utf8]

end Text

open Text

namespace Decimal

theorem digitValue_lt {c : Char} (digit : isDigit c = true) : digitValue c < 10 := by
  simp only [isDigit, Bool.and_eq_true, decide_eq_true_eq] at digit
  have upper : c.toNat ≤ '9'.toNat := digit.2
  have nine : '9'.toNat = 57 := rfl
  rw [digitValue]
  omega

theorem utf8Size_of_isDigit {c : Char} (digit : isDigit c = true) : c.utf8Size = 1 := by
  simp only [isDigit, Bool.and_eq_true, decide_eq_true_eq] at digit
  have upper : c.val ≤ '9'.val := digit.2
  exact Char.utf8Size_eq_one_iff.mpr (UInt32.le_trans upper (by decide))

theorem value_lt {text : List Char} (all : text.all isDigit = true) :
    value text < 10 ^ text.length := by
  have folded (text : List Char) (all : text.all isDigit = true) (total : Nat) :
      text.foldl (fun total c => 10 * total + digitValue c) total < (total + 1) * 10 ^ text.length := by
    induction text generalizing total with
    | nil => simp
    | cons c rest ih =>
        simp only [List.all_cons, Bool.and_eq_true] at all
        have later := ih all.2 (10 * total + digitValue c)
        have small := digitValue_lt all.1
        rw [List.foldl_cons, List.length_cons, Nat.pow_succ, ← Nat.mul_assoc, Nat.mul_right_comm]
        exact Nat.lt_of_lt_of_le later (Nat.mul_le_mul_right _ (by omega))
  simpa [value] using folded text all 0

theorem width_digits (number : Nat) : width (digits number) = (digits number).length := by
  have all := all_isDigit_digits number
  generalize digits number = text at all
  induction text with
  | nil => rfl
  | cons c rest ih =>
      simp only [List.all_cons, Bool.and_eq_true] at all
      rw [width_cons, utf8Size_of_isDigit all.1, ih all.2, List.length_cons, Nat.add_comm]

/-- A number is written without leading zeros. -/
theorem width_digits_value_le {text : List Char} {number : Nat} (read : value? text = some number) :
    width (digits number) ≤ width text := by
  simp only [value?, Bool.or_eq_true, List.isEmpty_iff, Bool.not_eq_true'] at read
  split at read
  · contradiction
  · rename_i written
    cases read
    have some : 0 < text.length := List.length_pos_iff.mpr fun empty => written (.inl empty)
    have all : text.all isDigit = true := by
      cases shape : text.all isDigit with
      | true => rfl
      | false => exact absurd (.inr shape) written
    rw [width_digits]
    exact Nat.le_trans (length_digits_le (value_lt all) some) (length_le_width text)

end Decimal

namespace VectorEntry

variable {entry : VectorEntry} {token : List Char}

/-- What an entry takes in the text of a vector, with a separator. -/
def room (entry : VectorEntry) : Nat :=
  width entry.write + 2

theorem width_write_le (found : read token = .ok entry) : width entry.write ≤ width token := by
  simp only [read] at found
  split at found
  · contradiction
  · rename_i tag rest colon
    obtain ⟨rfl, -⟩ := cut?_eq_some_iff.mp colon
    split at found
    · contradiction
    · rename_i etag name dash
      obtain ⟨rfl, -⟩ := cut?_eq_some_iff.mp dash
      split at found
      · contradiction
      · split at found
        · contradiction
        · rename_i size valued
          split at found
          · rename_i bound
            cases found
            have exact : (Int64.ofNat size).toInt = size := Int64.toInt_ofNat_of_lt bound
            have shorter := Decimal.width_digits_value_le valued
            simp only [write, exact, Decimal.signed, String.toList_ofList, width_append, width_cons]
            omega
          · contradiction

theorem two_le_width_write (entry : VectorEntry) : 2 ≤ width entry.write := by
  have colon : ':'.utf8Size = 1 := rfl
  have dash : '-'.utf8Size = 1 := rfl
  simp only [write, width_append, width_cons]
  omega

end VectorEntry

namespace ChangeVector

variable {vector : ChangeVector} {text : String}

def room (entries : List VectorEntry) : Nat :=
  (entries.map VectorEntry.room).sum

theorem width_joinTokens_le (tokens : List (List Char)) :
    width (joinTokens tokens) ≤ (tokens.map fun token => width token + 2).sum := by
  fun_induction joinTokens tokens with
  | case1 => exact Nat.le_refl 0
  | case2 token => simp
  | case3 token rest some ih =>
      have comma : ','.utf8Size = 1 := rfl
      have blank : ' '.utf8Size = 1 := rfl
      rw [List.map_cons, List.sum_cons, width_append, width_cons, width_cons]
      omega

theorem length_text_le (vector : ChangeVector) :
    (utf8 vector.text).length ≤ room vector.entries := by
  have joined := width_joinTokens_le (vector.entries.map VectorEntry.write)
  rw [List.map_map] at joined
  rw [length_utf8, text, String.toList_ofList]
  exact joined

/-- No entry is counted twice, whichever vectors it is in. -/
theorem room_le_of_subset {pool : List VectorEntry} (among : vector.entries ⊆ pool) :
    room vector.entries ≤ room pool := by
  have distinct : vector.entries.Nodup := List.Nodup.of_map _ vector.distinct
  obtain ⟨part, same, inside⟩ := List.subperm_of_subset distinct among
  have rooms := (inside.map VectorEntry.room).sum_le_sum fun _ _ => Nat.zero_le _
  rw [(same.map VectorEntry.room).sum_eq] at rooms
  exact rooms

theorem room_le_of_mapM {tokens : List (List Char)} {entries : List VectorEntry}
    (done : tokens.mapM readToken = .ok entries) :
    room entries ≤ 2 * (tokens.map width).sum := by
  induction tokens generalizing entries with
  | nil =>
      cases done
      exact Nat.le_refl 0
  | cons token rest ih =>
      rw [List.mapM_cons] at done
      obtain ⟨entry, found, done⟩ := Except.bind_eq_ok_iff.mp done
      obtain ⟨others, more, same⟩ := Except.bind_eq_ok_iff.mp done
      cases same
      have later := ih more
      have first : entry.room ≤ 2 * width token := by
        simp only [readToken] at found
        split at found
        · contradiction
        · have written := VectorEntry.width_write_le found
          have trimmed := width_trim_le token
          have some := entry.two_le_width_write
          rw [VectorEntry.room]
          omega
      rw [room, List.map_cons, List.sum_cons, List.map_cons, List.sum_cons]
      rw [room] at later
      omega

theorem room_le_of_parse (parsed : parse text = .ok vector) :
    room vector.entries ≤ 2 * (utf8 text).length := by
  have found := parse_eq_ok_iff.mp parsed
  rw [length_utf8]
  simp only [ofText, read] at found
  split at found
  · cases found
    exact Nat.zero_le _
  · obtain ⟨entries, entriesRead, made⟩ := Except.bind_eq_ok_iff.mp found
    have tokens := room_le_of_mapM entriesRead
    have pieces := sum_width_pieces_le ',' (trim text.toList)
    have trimmed := width_trim_le text.toList
    rw [entries_of_ofEntries made]
    omega

/-- The entries of the vector that a text is, none where it is no vector. -/
def entriesIn (text : String) : List VectorEntry :=
  match parse text with
  | .ok vector => vector.entries
  | .error _ => []

theorem entriesIn_of_parse (parsed : parse text = .ok vector) :
    entriesIn text = vector.entries := by
  rw [entriesIn, parsed]

theorem room_entriesIn_le (text : String) : room (entriesIn text) ≤ 2 * (utf8 text).length := by
  rw [entriesIn]
  split
  · rename_i parsed
    exact room_le_of_parse parsed
  · exact Nat.zero_le _

theorem room_append (first last : List VectorEntry) :
    room (first ++ last) = room first + room last := by
  simp [room]

theorem room_flatMap_le {α : Type} {entriesOf : α → List VectorEntry} {size : α → Nat}
    (each : ∀ item, room (entriesOf item) ≤ 2 * size item) (items : List α) :
    room (items.flatMap entriesOf) ≤ 2 * (items.map size).sum := by
  induction items with
  | nil => exact Nat.le_refl 0
  | cons item rest ih =>
      have first := each item
      rw [List.flatMap_cons, room_append, List.map_cons, List.sum_cons]
      omega

end ChangeVector

end DocumentReplication
