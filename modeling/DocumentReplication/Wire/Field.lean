import DocumentReplication.Bytes.LittleEndian
import DocumentReplication.Fault
import DocumentReplication.Text.Encoding
import DocumentReplication.Time.Timestamp

/-!
The fields of a record on the wire. A record has a layout, the list of the kinds of its fields, and
its values follow each other without padding; numbers are little-endian, and texts and blobs carry
their length in four octets.

`Layout.read_write` and `Layout.write_of_read` say that the values of a layout and their octets
determine each other.
-/

namespace DocumentReplication

inductive FieldKind where
  | byte
  | word32
  | word64
  | signed
  | time
  | text
  | blob
deriving DecidableEq, Repr

/-- What reading gives, and what is left to be read. A failed read may have used octets up. -/
abbrev Attempt (α : Type) := Except WireFault α × Bytes

namespace Attempt

variable {α β : Type}

def andThen (first : Attempt α) (next : α → Bytes → Attempt β) : Attempt β :=
  match first with
  | (.ok value, rest) => next value rest
  | (.error fault, rest) => (.error fault, rest)

theorem andThen_eq_ok_iff {first : Attempt α} {next : α → Bytes → Attempt β} {result : β}
    {rest : Bytes} :
    first.andThen next = (.ok result, rest) ↔
      ∃ value left, first = (.ok value, left) ∧ next value left = (.ok result, rest) := by
  obtain ⟨outcome, left⟩ := first
  cases outcome with
  | error fault => simp [andThen]
  | ok value =>
      constructor
      · exact fun found => ⟨value, left, rfl, found⟩
      · rintro ⟨_, _, same, found⟩
        cases same
        exact found

end Attempt

def takeBytes (record : String) (count : Nat) (bytes : Bytes) : Attempt Bytes :=
  match bytes.split? count with
  | some (taken, rest) => (.ok taken, rest)
  | none => (.error (.fieldTruncated record count bytes.length), bytes)

theorem takeBytes_append (record : String) {count : Nat} {taken : Bytes}
    (width : taken.length = count) (rest : Bytes) :
    takeBytes record count (taken ++ rest) = (.ok taken, rest) := by
  subst width
  simp [takeBytes]

theorem takeBytes_eq_ok_iff {record : String} {count : Nat} {bytes taken rest : Bytes} :
    takeBytes record count bytes = (.ok taken, rest) ↔
      bytes = taken ++ rest ∧ taken.length = count := by
  rw [← Bytes.split?_eq_some_iff]
  cases found : bytes.split? count <;> simp [takeBytes, found, Prod.ext_iff]

def sized (content : Bytes) : Bytes :=
  LittleEndian.word32 (UInt32.ofNat content.length) ++ content

def readSized (record : String) (bytes : Bytes) : Attempt Bytes :=
  (takeBytes record 4 bytes).andThen fun size rest =>
    takeBytes record (LittleEndian.toWord32 size).toNat rest

theorem readSized_sized (record : String) {content : Bytes} (bound : content.length < UInt32.size)
    (rest : Bytes) : readSized record (sized content ++ rest) = (.ok content, rest) := by
  have exact : (UInt32.ofNat content.length).toNat = content.length :=
    UInt32.toNat_ofNat_of_lt' bound
  simp only [readSized, sized, List.append_assoc,
    takeBytes_append record (LittleEndian.length_word32 _), Attempt.andThen,
    LittleEndian.toWord32_word32]
  exact takeBytes_append record exact.symm rest

theorem sized_of_readSized {record : String} {bytes content rest : Bytes}
    (read : readSized record bytes = (.ok content, rest)) :
    bytes = sized content ++ rest ∧ content.length < UInt32.size := by
  obtain ⟨size, left, first, last⟩ := Attempt.andThen_eq_ok_iff.mp read
  obtain ⟨rfl, width⟩ := takeBytes_eq_ok_iff.mp first
  obtain ⟨rfl, length⟩ := takeBytes_eq_ok_iff.mp last
  refine ⟨?_, length ▸ (LittleEndian.toWord32 size).toNat_lt⟩
  rw [sized, length, UInt32.ofNat_toNat, LittleEndian.word32_toWord32 width, List.append_assoc]

namespace FieldKind

@[reducible] def Value : FieldKind → Type
  | byte => UInt8
  | word32 => UInt32
  | word64 => UInt64
  | signed => Int64
  | time => Timestamp
  | text => String
  | blob => Bytes

def write : (kind : FieldKind) → kind.Value → Bytes
  | byte, value => [value]
  | word32, value => LittleEndian.word32 value
  | word64, value => LittleEndian.word64 value
  | signed, value => LittleEndian.signed64 value
  | time, value => LittleEndian.signed64 value.toSigned
  | text, value => sized (Text.utf8 value)
  | blob, value => sized value

def readByte (record : String) (bytes : Bytes) : Attempt UInt8 :=
  match bytes with
  | first :: rest => (.ok first, rest)
  | [] => (.error (.fieldTruncated record 1 0), [])

def readTime (record : String) (bytes : Bytes) : Attempt Timestamp :=
  (takeBytes record 8 bytes).andThen fun taken rest =>
    match Timestamp.ofSigned? (LittleEndian.toSigned64 taken) with
    | some moment => (.ok moment, rest)
    | none => (.error (.timeOutOfRange record (LittleEndian.toSigned64 taken).toInt), rest)

def readText (record : String) (bytes : Bytes) : Attempt String :=
  (readSized record bytes).andThen fun content rest =>
    match Text.ofUtf8? content with
    | some value => (.ok value, rest)
    | none => (.error (.textNotUtf8 record), rest)

def read (record : String) : (kind : FieldKind) → Bytes → Attempt kind.Value
  | byte, bytes => readByte record bytes
  | word32, bytes => (takeBytes record 4 bytes).andThen fun taken rest =>
    (.ok (LittleEndian.toWord32 taken), rest)
  | word64, bytes => (takeBytes record 8 bytes).andThen fun taken rest =>
    (.ok (LittleEndian.toWord64 taken), rest)
  | signed, bytes => (takeBytes record 8 bytes).andThen fun taken rest =>
    (.ok (LittleEndian.toSigned64 taken), rest)
  | time, bytes => readTime record bytes
  | text, bytes => readText record bytes
  | blob, bytes => readSized record bytes

/-- Whether a field can hold a value: the length of a text or blob has to fit its prefix, and a
moment is known by its count only outside of leap seconds. -/
def Fits : (kind : FieldKind) → kind.Value → Prop
  | time, value => value.leap = false
  | text, value => (Text.utf8 value).length < UInt32.size
  | blob, value => value.length < UInt32.size
  | _, _ => True

instance : (kind : FieldKind) → (value : kind.Value) → Decidable (kind.Fits value)
  | time, value => inferInstanceAs (Decidable (value.leap = false))
  | text, value => inferInstanceAs (Decidable ((Text.utf8 value).length < UInt32.size))
  | blob, value => inferInstanceAs (Decidable (value.length < UInt32.size))
  | byte, _ | word32, _ | word64, _ | signed, _ => isTrue trivial

theorem read_write (record : String) {kind : FieldKind} {value : kind.Value}
    (fits : kind.Fits value) (rest : Bytes) :
    kind.read record (kind.write value ++ rest) = (.ok value, rest) := by
  cases kind with
  | byte => rfl
  | word32 =>
      simp [read, write, takeBytes_append record (LittleEndian.length_word32 _), Attempt.andThen]
  | word64 =>
      simp [read, write, takeBytes_append record (LittleEndian.length_word64 _), Attempt.andThen]
  | signed =>
      simp [read, write, takeBytes_append record (LittleEndian.length_signed64 _), Attempt.andThen]
  | time =>
      simp [read, readTime, write, takeBytes_append record (LittleEndian.length_signed64 _),
        Attempt.andThen, Timestamp.ofSigned?_toSigned fits]
  | text => simp [read, readText, write, readSized_sized record fits, Attempt.andThen]
  | blob => exact readSized_sized record fits rest

theorem write_of_read {record : String} {kind : FieldKind} {bytes rest : Bytes}
    {value : kind.Value} (found : kind.read record bytes = (.ok value, rest)) :
    bytes = kind.write value ++ rest ∧ kind.Fits value := by
  cases kind with
  | byte =>
      cases bytes with
      | nil => simp [read, readByte] at found
      | cons first left =>
          simp only [read, readByte, Prod.mk.injEq, Except.ok.injEq] at found
          obtain ⟨rfl, rfl⟩ := found
          exact ⟨rfl, trivial⟩
  | word32 =>
      obtain ⟨taken, left, first, last⟩ := Attempt.andThen_eq_ok_iff.mp found
      obtain ⟨rfl, width⟩ := takeBytes_eq_ok_iff.mp first
      cases last
      exact ⟨by rw [write, LittleEndian.word32_toWord32 width], trivial⟩
  | word64 =>
      obtain ⟨taken, left, first, last⟩ := Attempt.andThen_eq_ok_iff.mp found
      obtain ⟨rfl, width⟩ := takeBytes_eq_ok_iff.mp first
      cases last
      exact ⟨by rw [write, LittleEndian.word64_toWord64 width], trivial⟩
  | signed =>
      obtain ⟨taken, left, first, last⟩ := Attempt.andThen_eq_ok_iff.mp found
      obtain ⟨rfl, width⟩ := takeBytes_eq_ok_iff.mp first
      cases last
      exact ⟨by rw [write, LittleEndian.signed64_toSigned64 width], trivial⟩
  | time =>
      obtain ⟨taken, left, first, last⟩ := Attempt.andThen_eq_ok_iff.mp found
      obtain ⟨rfl, width⟩ := takeBytes_eq_ok_iff.mp first
      split at last
      · rename_i inRange
        cases last
        refine ⟨?_, Timestamp.leap_of_ofSigned? inRange⟩
        rw [write, Timestamp.toSigned_of_ofSigned? inRange, LittleEndian.signed64_toSigned64 width]
      · simp at last
  | text =>
      obtain ⟨content, left, first, last⟩ := Attempt.andThen_eq_ok_iff.mp found
      obtain ⟨rfl, bound⟩ := sized_of_readSized first
      split at last
      · rename_i valid
        cases last
        have same := Text.utf8_of_ofUtf8? valid
        subst same
        exact ⟨rfl, bound⟩
      · simp at last
  | blob => exact sized_of_readSized found

end FieldKind

abbrev Layout := List FieldKind

namespace Layout

@[reducible] def Values : Layout → Type
  | [] => Unit
  | kind :: layout => kind.Value × Values layout

def write : (layout : Layout) → layout.Values → Bytes
  | [], _ => []
  | kind :: layout, (value, values) => kind.write value ++ write layout values

def read (record : String) : (layout : Layout) → Bytes → Attempt layout.Values
  | [], bytes => (.ok (), bytes)
  | kind :: layout, bytes =>
    (kind.read record bytes).andThen fun value rest =>
      (read record layout rest).andThen fun values rest => (.ok (value, values), rest)

def finish (record : String) (bytes : Bytes) : Except WireFault Unit :=
  if bytes.isEmpty then .ok () else .error (.trailingBytes record bytes.length)

def readWhole (record : String) (layout : Layout) (bytes : Bytes) :
    Except WireFault layout.Values :=
  match layout.read record bytes with
  | (.ok values, rest) => (finish record rest).map fun _ => values
  | (.error fault, _) => .error fault

def Fits : (layout : Layout) → layout.Values → Prop
  | [], _ => True
  | kind :: layout, (value, values) => kind.Fits value ∧ Fits layout values

instance decidableFits : (layout : Layout) → (values : layout.Values) →
    Decidable (layout.Fits values)
  | [], _ => isTrue trivial
  | kind :: layout, (value, values) =>
    have := decidableFits layout values
    inferInstanceAs (Decidable (kind.Fits value ∧ Fits layout values))

theorem read_write (record : String) {layout : Layout} {values : layout.Values}
    (fits : layout.Fits values) (rest : Bytes) :
    layout.read record (layout.write values ++ rest) = (.ok values, rest) := by
  induction layout with
  | nil => rfl
  | cons kind layout ih =>
      obtain ⟨value, values⟩ := values
      rw [write, List.append_assoc, read, FieldKind.read_write record fits.1]
      simp only [Attempt.andThen, ih fits.2]

theorem write_of_read {record : String} {layout : Layout} {values : layout.Values}
    {bytes rest : Bytes} (found : layout.read record bytes = (.ok values, rest)) :
    bytes = layout.write values ++ rest ∧ layout.Fits values := by
  induction layout generalizing bytes with
  | nil =>
      simp only [read, Prod.mk.injEq] at found
      exact ⟨found.2, trivial⟩
  | cons kind layout ih =>
      obtain ⟨value, left, first, others⟩ := Attempt.andThen_eq_ok_iff.mp found
      obtain ⟨tail, last, next, same⟩ := Attempt.andThen_eq_ok_iff.mp others
      cases same
      obtain ⟨rfl, fits⟩ := FieldKind.write_of_read first
      obtain ⟨rfl, fit⟩ := ih next
      exact ⟨by rw [write, List.append_assoc], fits, fit⟩

theorem finish_eq_ok_iff {record : String} {bytes : Bytes} :
    finish record bytes = .ok () ↔ bytes = [] := by
  cases bytes <;> simp [finish]

theorem readWhole_eq_ok_iff (record : String) {layout : Layout} {values : layout.Values}
    {bytes : Bytes} :
    readWhole record layout bytes = .ok values ↔
      bytes = layout.write values ∧ layout.Fits values := by
  constructor
  · intro found
    simp only [readWhole] at found
    split at found
    · rename_i values rest read
      cases rest with
      | nil =>
          cases found
          simpa using write_of_read read
      | cons first others => simp [finish, Except.map] at found
    · contradiction
  · rintro ⟨rfl, fits⟩
    have read := read_write record fits []
    rw [List.append_nil] at read
    simp [readWhole, read, finish, Except.map]

end Layout

end DocumentReplication
