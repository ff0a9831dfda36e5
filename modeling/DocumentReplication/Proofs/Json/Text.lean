import DocumentReplication.Json.Text
import DocumentReplication.Proofs.Time.InternetDate

/-!
Texts in JSON documents stand for the strings they were made of: an escape gives its character back,
and every other character is its own octets.
-/

namespace DocumentReplication

namespace Text

theorem utf8_singleton (c : Char) : utf8 (String.singleton c) = String.utf8EncodeChar c := by
  rw [String.singleton_eq_ofList]
  simp [utf8, List.utf8Encode]

theorem le_marked {bits mark : UInt8} (high : 128 ≤ mark.toNat) : 128 ≤ bits ||| mark := by
  rw [UInt8.le_iff_toNat_le, UInt8.toNat_or]
  exact Nat.le_trans high Nat.right_le_or

/-- A character is an octet of its own, or has only octets that no such character has. -/
theorem of_mem_utf8EncodeChar {c : Char} {byte : UInt8}
    (member : byte ∈ String.utf8EncodeChar c) :
    (c.toNat < 128 ∧ byte.toNat = c.toNat) ∨ 128 ≤ byte := by
  rcases c.utf8Size_eq with size | size | size | size
  · left
    rw [String.utf8EncodeChar_eq_singleton size, List.mem_singleton] at member
    have small := Char.utf8Size_eq_one_iff.mp size
    rw [UInt32.le_iff_toNat_le] at small
    have upper : c.val.toNat ≤ 127 := small
    refine ⟨Nat.lt_succ_of_le upper, ?_⟩
    rw [member, UInt32.toNat_toUInt8, Nat.mod_eq_of_lt (by omega)]
    rfl
  · right
    rw [String.utf8EncodeChar_eq_cons_cons size] at member
    simp only [List.mem_cons, List.not_mem_nil, or_false] at member
    rcases member with rfl | rfl <;> exact le_marked (by decide)
  · right
    rw [String.utf8EncodeChar_eq_cons_cons_cons size] at member
    simp only [List.mem_cons, List.not_mem_nil, or_false] at member
    rcases member with rfl | rfl | rfl <;> exact le_marked (by decide)
  · right
    rw [String.utf8EncodeChar_eq_cons_cons_cons_cons size] at member
    simp only [List.mem_cons, List.not_mem_nil, or_false] at member
    rcases member with rfl | rfl | rfl | rfl <;> exact le_marked (by decide)

/-- Only control characters have octets of control characters. -/
theorem le_of_mem_utf8EncodeChar {c : Char} (printable : 32 ≤ c.toNat) {byte : UInt8}
    (member : byte ∈ String.utf8EncodeChar c) : 32 ≤ byte := by
  rw [UInt8.le_iff_toNat_le]
  rcases of_mem_utf8EncodeChar member with ⟨-, same⟩ | high
  · rw [same]
    exact printable
  · exact Nat.le_trans (by decide) (UInt8.le_iff_toNat_le.mp high)

/-- The octets of a character are no others' that is an octet of its own. -/
theorem ne_of_mem_utf8EncodeChar {c other : Char} (small : other.toNat < 128) (apart : c ≠ other)
    {byte : UInt8} (member : byte ∈ String.utf8EncodeChar c) : byte ≠ Bytes.ascii other := by
  have exact : (Bytes.ascii other).toNat = other.toNat := UInt8.toNat_ofNat_of_lt' (by
    simp only [UInt8.size]
    omega)
  rintro rfl
  rcases of_mem_utf8EncodeChar member with ⟨-, same⟩ | high
  · exact apart (Char.toNat_inj.mp (same.symm.trans exact))
  · have := UInt8.le_iff_toNat_le.mp high
    have mark : (128 : UInt8).toNat = 128 := rfl
    omega

end Text

namespace Json.Piece

variable {pieces : List Piece} {value : Nat} {c : Char}

theorem not_surrogate (small : value < 0xD800) :
    isHighSurrogate value = false ∧ isLowSurrogate value = false := by
  simp only [isHighSurrogate, isLowSurrogate, Bool.and_eq_false_iff, decide_eq_false_iff_not]
  exact ⟨.inl (by omega), .inl (by omega)⟩

theorem toOctets_unit (small : value < 0xD800) (rest : List Piece) :
    toOctets (unit value :: rest) = codePoint value ++ toOctets rest := by
  cases rest with
  | nil => simp [toOctets]
  | cons next rest =>
      cases next with
      | raw byte => simp [toOctets]
      | unit other => simp [toOctets, (not_surrogate small).1]

theorem isPlain_unit (small : value < 0xD800) (rest : List Piece) :
    isPlain (unit value :: rest) = isPlain rest := by
  obtain ⟨high, low⟩ := not_surrogate small
  cases rest with
  | nil => simp [isPlain, high, low]
  | cons next rest =>
      cases next with
      | raw byte => simp [isPlain, high, low]
      | unit other => simp [isPlain, high, low]

theorem toOctets_raw (bytes : Bytes) (rest : List Piece) :
    toOctets (bytes.map raw ++ rest) = bytes ++ toOctets rest := by
  induction bytes with
  | nil => rfl
  | cons byte bytes ih => rw [List.map_cons, List.cons_append, toOctets, ih, List.cons_append]

theorem isPlain_raw {bytes : Bytes} (printable : ∀ byte ∈ bytes, 32 ≤ byte) (rest : List Piece) :
    isPlain (bytes.map raw ++ rest) = isPlain rest := by
  induction bytes with
  | nil => rfl
  | cons byte bytes ih =>
      rw [List.map_cons, List.cons_append, isPlain, ih fun other member =>
        printable other (List.mem_cons_of_mem _ member)]
      simp [printable byte List.mem_cons_self]

theorem codePoint_ascii (small : c.toNat < 128) : codePoint c.toNat = String.utf8EncodeChar c := by
  have size : c.utf8Size = 1 := by
    rw [Char.utf8Size_eq_one_iff, UInt32.le_iff_toNat_le]
    exact Nat.le_of_lt_succ small
  rw [codePoint, if_pos small, String.utf8EncodeChar_eq_singleton size]
  rfl

theorem ofChar_append (c : Char) (rest : List Piece) :
    toOctets (ofChar c ++ rest) = String.utf8EncodeChar c ++ toOctets rest ∧
      isPlain (ofChar c ++ rest) = isPlain rest := by
  by_cases escaped : c.toNat < 32 ∨ c = '"' ∨ c = '\\'
  · have ascii : c.toNat < 128 := by
      rcases escaped with control | rfl | rfl
      · omega
      · decide
      · decide
    have small : c.toNat < 0xD800 := by omega
    rw [ofChar, if_pos escaped, List.singleton_append, toOctets_unit small, isPlain_unit small,
      codePoint_ascii ascii]
    exact ⟨rfl, rfl⟩
  · have printable : 32 ≤ c.toNat := by
      simp only [not_or] at escaped
      omega
    rw [ofChar, if_neg escaped, toOctets_raw, Text.utf8_singleton,
      isPlain_raw fun byte member => Text.le_of_mem_utf8EncodeChar printable member]
    exact ⟨rfl, rfl⟩

theorem flatMap_ofChar (text : List Char) :
    toOctets (text.flatMap ofChar) = Text.utf8 (String.ofList text) ∧
      isPlain (text.flatMap ofChar) = true := by
  induction text with
  | nil => exact ⟨rfl, rfl⟩
  | cons c rest ih =>
      obtain ⟨octets, plain⟩ := ofChar_append c (rest.flatMap ofChar)
      rw [List.flatMap_cons, octets, plain, Text.utf8_ofList_cons, ih.1]
      exact ⟨rfl, ih.2⟩

@[simp] theorem toString?_ofString (value : String) : toString? (ofString value) = some value := by
  obtain ⟨octets, plain⟩ := flatMap_ofChar value.toList
  rw [String.ofList_toList] at octets
  rw [toString?, ofString, plain, octets, if_pos rfl, Text.ofUtf8?_utf8]

end Json.Piece

end DocumentReplication
