import DocumentReplication.Proofs.Time.InternetDate
import DocumentReplication.Proofs.Work
import DocumentReplication.Store.Record

/-!
Records are read back as they were written, whatever follows them. The lengths in front of the parts
tell where a part ends, as long as eight octets can count it.
-/

namespace DocumentReplication

namespace Dictionary

variable {κ ν : Type} [DecidableEq κ] {entries : List (κ × ν)} {key : κ} {value : ν}

theorem place_of_absent (absent : key ∉ entries.map (·.1)) :
    place key value entries = entries ++ [(key, value)] := by
  induction entries with
  | nil => rfl
  | cons entry rest ih =>
      simp only [List.map_cons, List.mem_cons, not_or] at absent
      rw [place, if_neg (Ne.symm absent.1), ih absent.2, List.cons_append]

theorem place_of_find (found : find key entries = some value) : place key value entries = entries := by
  induction entries with
  | nil => contradiction
  | cons entry rest ih =>
      obtain ⟨name, content⟩ := entry
      by_cases same : name = key
      · subst same
        simp only [find, if_pos, Option.some.injEq] at found
        rw [place, if_pos rfl, found]
      · rw [find, if_neg same] at found
        rw [place, if_neg same, ih found]

omit [DecidableEq κ] in
theorem ext_entries {first last : Dictionary κ ν} (same : first.entries = last.entries) :
    first = last := by
  cases first
  cases last
  simpa using same

theorem insert_of_get? {table : Dictionary κ ν} (found : table.get? key = some value) :
    table.insert key value = table :=
  ext_entries (place_of_find found)

theorem place_place (key : κ) (value later : ν) (entries : List (κ × ν)) :
    place key later (place key value entries) = place key later entries := by
  induction entries with
  | nil => simp [place]
  | cons entry rest ih => by_cases same : entry.1 = key <;> simp [place, same, ih]

theorem insert_insert (table : Dictionary κ ν) (key : κ) (value later : ν) :
    (table.insert key value).insert key later = table.insert key later :=
  ext_entries (place_place key value later table.entries)

theorem entries_foldl_insert (table : Dictionary κ ν)
    (distinct : ((table.entries ++ entries).map (·.1)).Nodup) :
    (entries.foldl (fun table entry => table.insert entry.1 entry.2) table).entries =
      table.entries ++ entries := by
  induction entries generalizing table with
  | nil => simp
  | cons entry rest ih =>
      have absent : entry.1 ∉ table.entries.map (·.1) := by
        simp only [List.map_append, List.map_cons, List.nodup_append, List.mem_cons] at distinct
        exact fun member => distinct.2.2 _ member _ (.inl rfl) rfl
      have placed : (table.insert entry.1 entry.2).entries = table.entries ++ [entry] :=
        place_of_absent absent
      rw [List.foldl_cons, ih _ (by rw [placed]; simpa using distinct), placed]
      simp

@[simp] theorem ofList_entries (table : Dictionary κ ν) : ofList table.entries = table :=
  ext_entries (entries_foldl_insert empty (by simpa [empty] using table.distinct))

end Dictionary

namespace StoredKind

variable {rest : Bytes}

theorem readCount?_count {number : Nat} (fits : number < UInt64.size) :
    readCount? (count number ++ rest) = some (number, rest) := by
  have width : (count number).length = 8 := LittleEndian.length_word64 _
  have split : Bytes.split? 8 (count number ++ rest) = some (count number, rest) :=
    Bytes.split?_eq_some_iff.mpr ⟨rfl, width⟩
  have counted : (LittleEndian.toWord64 (count number)).toNat = number := by
    rw [count, LittleEndian.toWord64_word64, UInt64.toNat_ofNat_of_lt' fits]
  simp only [readCount?, split, Option.bind_eq_bind, Option.bind_some, counted]
  rfl

theorem readSized?_sized {content : Bytes} (fits : content.length < UInt64.size) :
    readSized? (sized content ++ rest) = some (content, rest) := by
  simp only [readSized?, sized, List.append_assoc, readCount?_count fits, Option.bind_eq_bind,
    Option.bind_some, Bytes.split?_append]

theorem readText?_writeText {value : String} (fits : (Text.utf8 value).length < UInt64.size) :
    readText? (writeText value ++ rest) = some (value, rest) := by
  simp only [readText?, writeText, readSized?_sized fits, Option.bind_eq_bind, Option.bind_some,
    Text.ofUtf8?_utf8]
  rfl

theorem readEtag?_writeEtag {entry : String × Int64}
    (fits : (Text.utf8 entry.1).length < UInt64.size) :
    readEtag? (writeEtag entry ++ rest) = some (entry, rest) := by
  have split : Bytes.split? 8 (LittleEndian.signed64 entry.2 ++ rest) =
      some (LittleEndian.signed64 entry.2, rest) :=
    Bytes.split?_eq_some_iff.mpr ⟨rfl, LittleEndian.length_signed64 _⟩
  simp only [readEtag?, writeEtag, List.append_assoc, readText?_writeText fits, split,
    Option.bind_eq_bind, Option.bind_some, LittleEndian.toSigned64_signed64]
  rfl

theorem readEtags?_flatMap {entries : List (String × Int64)}
    (fits : ∀ entry ∈ entries, (Text.utf8 entry.1).length < UInt64.size) :
    readEtags? entries.length (entries.flatMap writeEtag ++ rest) = some (entries, rest) := by
  induction entries with
  | nil => rfl
  | cons entry others ih =>
      simp only [List.length_cons, List.flatMap_cons, List.append_assoc, readEtags?,
        readEtag?_writeEtag (fits entry List.mem_cons_self),
        ih fun other member => fits other (List.mem_cons_of_mem _ member), Option.bind_eq_bind,
        Option.bind_some]
      rfl

theorem read?_write {kind : StoredKind} {value : kind.Value} (fits : kind.Fits value) :
    kind.read? (kind.write value ++ rest) = some (value, rest) := by
  cases kind with
  | text => exact readText?_writeText fits
  | blob => exact readSized?_sized fits
  | word32 =>
      have split : Bytes.split? 4 (LittleEndian.word32 value ++ rest) =
          some (LittleEndian.word32 value, rest) :=
        Bytes.split?_eq_some_iff.mpr ⟨rfl, LittleEndian.length_word32 _⟩
      simp only [read?, write, split, Option.bind_eq_bind, Option.bind_some,
        LittleEndian.toWord32_word32]
      rfl
  | moment =>
      simp only [read?, write, readText?_writeText (InternetDate.length_utf8_text value),
        InternetDate.ofText?_text, Option.bind_eq_bind, Option.bind_some]
      rfl
  | etags =>
      simp only [read?, write, List.append_assoc, readCount?_count fits.1,
        readEtags?_flatMap fits.2, Option.bind_eq_bind, Option.bind_some, Dictionary.ofList_entries]
      rfl

end StoredKind

theorem StoredLayout.read?_write {layout : StoredLayout} {values : layout.Values} {rest : Bytes}
    (fits : layout.Fits values) :
    layout.read? (layout.write values ++ rest) = some (values, rest) := by
  induction layout with
  | nil => rfl
  | cons kind layout ih =>
      obtain ⟨value, values⟩ := values
      simp only [read?, write, List.append_assoc, StoredKind.read?_write fits.1, ih fits.2,
        Option.bind_eq_bind, Option.bind_some]
      rfl

namespace Stored

variable {ρ : Type} [Stored ρ] {record : ρ} {bytes : Bytes}

theorem octets_eq_ok_iff :
    octets record = .ok bytes ↔ (layout ρ).Fits (values record) ∧ encode record = bytes := by
  rw [octets]
  split <;> simp_all

/-- What follows the octets of a record is not looked at. -/
theorem decode_encode_append (fits : (layout ρ).Fits (values record)) (following : Bytes) :
    decode (encode record ++ following) = .ok record := by
  have read : (layout ρ).read? ((layout ρ).write (values record) ++ following) =
      some (values record, following) := StoredLayout.read?_write fits
  simp only [decode, decode?, encode, read, Option.map_some, ofValues_values]

/-- What could be stored is read back. -/
theorem decode_octets (stored : octets record = .ok bytes) : decode bytes = .ok record := by
  obtain ⟨fits, rfl⟩ := octets_eq_ok_iff.mp stored
  simpa using decode_encode_append fits []

end Stored

end DocumentReplication
