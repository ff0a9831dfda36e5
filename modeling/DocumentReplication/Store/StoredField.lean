import DocumentReplication.Bytes.LittleEndian
import DocumentReplication.Dictionary
import DocumentReplication.Text.Encoding
import DocumentReplication.Time.InternetDate

/-!
The fields of stored records. Texts, blobs and tables carry their length in eight octets, moments
are stored as internet dates, and fields follow each other without padding.
-/

namespace DocumentReplication

inductive StoredKind where
  | text
  | blob
  | word32
  | moment
  | etags
deriving DecidableEq, Repr

namespace StoredKind

@[reducible] def Value : StoredKind → Type
  | text => String
  | blob => Bytes
  | word32 => UInt32
  | moment => Timestamp
  | etags => Dictionary String Int64

def count (number : Nat) : Bytes :=
  LittleEndian.word64 (UInt64.ofNat number)

def sized (content : Bytes) : Bytes :=
  count content.length ++ content

def writeText (value : String) : Bytes :=
  sized (Text.utf8 value)

def writeEtag (entry : String × Int64) : Bytes :=
  writeText entry.1 ++ LittleEndian.signed64 entry.2

def write : (kind : StoredKind) → kind.Value → Bytes
  | text, value => writeText value
  | blob, value => sized value
  | word32, value => LittleEndian.word32 value
  | moment, value => writeText (InternetDate.text value)
  | etags, value => count value.entries.length ++ value.entries.flatMap writeEtag

/-- Whether eight octets can count what a field holds; no other value can be kept in memory. -/
def Fits : (kind : StoredKind) → kind.Value → Prop
  | text, value => (Text.utf8 value).length < UInt64.size
  | blob, value => value.length < UInt64.size
  | etags, value =>
    value.entries.length < UInt64.size ∧
      ∀ entry ∈ value.entries, (Text.utf8 entry.1).length < UInt64.size
  | _, _ => True

instance : (kind : StoredKind) → (value : kind.Value) → Decidable (kind.Fits value)
  | text, value => inferInstanceAs (Decidable ((Text.utf8 value).length < UInt64.size))
  | blob, value => inferInstanceAs (Decidable (value.length < UInt64.size))
  | etags, value => inferInstanceAs (Decidable (value.entries.length < UInt64.size ∧
      ∀ entry ∈ value.entries, (Text.utf8 entry.1).length < UInt64.size))
  | word32, _ => isTrue trivial
  | moment, _ => isTrue trivial

def readCount? (bytes : Bytes) : Option (Nat × Bytes) := do
  let (taken, rest) ← bytes.split? 8
  return ((LittleEndian.toWord64 taken).toNat, rest)

def readSized? (bytes : Bytes) : Option (Bytes × Bytes) := do
  let (length, rest) ← readCount? bytes
  rest.split? length

def readText? (bytes : Bytes) : Option (String × Bytes) := do
  let (content, rest) ← readSized? bytes
  return (← Text.ofUtf8? content, rest)

def readEtag? (bytes : Bytes) : Option ((String × Int64) × Bytes) := do
  let (source, rest) ← readText? bytes
  let (etag, rest) ← rest.split? 8
  return ((source, LittleEndian.toSigned64 etag), rest)

/-- As many etags as were announced. An entry takes 16 octets at least, so an announcement that the
octets cannot keep fails early. -/
def readEtags? : Nat → Bytes → Option (List (String × Int64) × Bytes)
  | 0, bytes => some ([], bytes)
  | count + 1, bytes => do
    let (first, rest) ← readEtag? bytes
    let (others, rest) ← readEtags? count rest
    return (first :: others, rest)

def read? : (kind : StoredKind) → Bytes → Option (kind.Value × Bytes)
  | text, bytes => readText? bytes
  | blob, bytes => readSized? bytes
  | word32, bytes => do
    let (taken, rest) ← bytes.split? 4
    return (LittleEndian.toWord32 taken, rest)
  | moment, bytes => do
    let (written, rest) ← readText? bytes
    return (← InternetDate.ofText? written, rest)
  | etags, bytes => do
    let (length, rest) ← readCount? bytes
    let (entries, rest) ← readEtags? length rest
    return (Dictionary.ofList entries, rest)

end StoredKind

abbrev StoredLayout := List StoredKind

namespace StoredLayout

@[reducible] def Values : StoredLayout → Type
  | [] => Unit
  | kind :: layout => kind.Value × Values layout

def write : (layout : StoredLayout) → layout.Values → Bytes
  | [], _ => []
  | kind :: layout, (value, values) => kind.write value ++ write layout values

def Fits : (layout : StoredLayout) → layout.Values → Prop
  | [], _ => True
  | kind :: layout, (value, values) => kind.Fits value ∧ Fits layout values

instance decidableFits : (layout : StoredLayout) → (values : layout.Values) →
    Decidable (layout.Fits values)
  | [], _ => isTrue trivial
  | kind :: layout, (value, values) =>
    have := decidableFits layout values
    inferInstanceAs (Decidable (kind.Fits value ∧ Fits layout values))

def read? : (layout : StoredLayout) → Bytes → Option (layout.Values × Bytes)
  | [], bytes => some ((), bytes)
  | kind :: layout, bytes => do
    let (value, rest) ← kind.read? bytes
    let (values, rest) ← read? layout rest
    return ((value, values), rest)

end StoredLayout

end DocumentReplication
