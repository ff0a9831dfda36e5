import DocumentReplication.Bytes

/-!
Texts as octets. Every text has one form in UTF-8, and the octets that are no form of a text are
refused; characters of ASCII are octets by themselves.
-/

namespace DocumentReplication.Bytes

def ascii (c : Char) : UInt8 := UInt8.ofNat c.toNat

def asciiText (text : List Char) : Bytes := text.map ascii

/-- Octets read as the first 256 characters. -/
def characters (bytes : Bytes) : List Char := bytes.map fun c => Char.ofNat c.toNat

theorem characters_asciiText {text : List Char} (small : ∀ c ∈ text, c.toNat < 128) :
    characters (asciiText text) = text := by
  induction text with
  | nil => rfl
  | cons c rest ih =>
      have bound := small c (by simp)
      have same : Char.ofNat (ascii c).toNat = c := by
        rw [ascii, UInt8.toNat_ofNat_of_lt' (by simp only [UInt8.size]; omega), Char.ofNat_toNat]
      simp only [asciiText, characters, List.map_cons, same, List.cons.injEq, true_and]
      exact ih fun d member => small d (by simp [member])

end DocumentReplication.Bytes

namespace DocumentReplication.Text

def utf8 (text : String) : Bytes :=
  text.toByteArray.data.toList

def ofUtf8? (bytes : Bytes) : Option String :=
  String.fromUTF8? ⟨bytes.toArray⟩

@[simp] theorem ofUtf8?_utf8 (text : String) : ofUtf8? (utf8 text) = some text := by
  have valid : text.toByteArray.IsValidUTF8 := text.isValidUTF8
  simp [ofUtf8?, utf8, String.fromUTF8?, String.fromUTF8, valid]

theorem utf8_of_ofUtf8? {bytes : Bytes} {text : String} (found : ofUtf8? bytes = some text) :
    utf8 text = bytes := by
  simp only [ofUtf8?, String.fromUTF8?, String.fromUTF8] at found
  split at found
  · cases found
    simp [utf8]
  · contradiction

theorem utf8_ofList_cons (c : Char) (rest : List Char) :
    utf8 (String.ofList (c :: rest)) = String.utf8EncodeChar c ++ utf8 (String.ofList rest) := by
  simp [utf8, List.utf8Encode]

end DocumentReplication.Text
