import DocumentReplication.Wire.Field

/-!
Replicated changes and their form on the wire: the octet of their kind, a header, and the fields of
their kind. Payloads of attachments travel on their own and join the changes later, as items of the
slice of a partition.

`Change.decode_eq_ok_iff` says that decoding accepts exactly what encoding produces.
-/

namespace DocumentReplication

structure ChangeHeader where
  changeVector : String
  etag : Int64
  modified : Timestamp
  flags : UInt32
deriving DecidableEq, Repr

inductive ChangeBody where
  | document (id collection : String) (content : Bytes)
  | documentTombstone (id collection : String)
  | attachment (documentId name contentType hash : String)
  | attachmentTombstone (documentId name : String)
  | counter (documentId name : String) (values : Bytes)
  | timeSeries (documentId name collection : String) (baseline : Timestamp) (segment : Bytes)
  | timeSeriesDeletedRange (documentId name collection : String) (first last : Timestamp)
  /-- A revision is named by its change vector, so its document is unknown. -/
  | revisionTombstone (revision collection : String)
deriving DecidableEq, Repr

structure Change where
  header : ChangeHeader
  body : ChangeBody
deriving DecidableEq, Repr

/-- An entry of the slice of a partition. -/
inductive Item where
  | change (change : Change)
  | payload (hash : String) (content : Bytes)
deriving DecidableEq, Repr

namespace ChangeBody

def kind : ChangeBody → ItemKind
  | document .. => .document
  | documentTombstone .. => .documentTombstone
  | attachment .. => .attachment
  | attachmentTombstone .. => .attachmentTombstone
  | counter .. => .counter
  | timeSeries .. => .timeSeries
  | timeSeriesDeletedRange .. => .timeSeriesDeletedRange
  | revisionTombstone .. => .revisionTombstone

def documentId? : ChangeBody → Option String
  | document id .. | documentTombstone id .. => some id
  | attachment id .. | attachmentTombstone id .. | counter id .. | timeSeries id ..
  | timeSeriesDeletedRange id .. => some id
  | revisionTombstone .. => none

def hash? : ChangeBody → Option String
  | attachment _ _ _ hash => some hash
  | _ => none

theorem kind_ne_attachmentStream (body : ChangeBody) : body.kind ≠ .attachmentStream := by
  cases body <;> simp [kind]

end ChangeBody

namespace Change

def kind (change : Change) : ItemKind := change.body.kind

def documentId? (change : Change) : Option String := change.body.documentId?

def hash? (change : Change) : Option String := change.body.hash?

end Change

namespace Item

def kind : Item → ItemKind
  | change entry => entry.kind
  | payload .. => .attachmentStream

def documentId? : Item → Option String
  | change entry => entry.documentId?
  | payload .. => none

def hash? : Item → Option String
  | change entry => entry.hash?
  | payload hash _ => some hash

def header? : Item → Option ChangeHeader
  | change entry => some entry.header
  | payload .. => none

def changeVector : Item → String
  | change entry => entry.header.changeVector
  | payload .. => ""

end Item

def ChangeHeader.layout : Layout := [.text, .signed, .time, .word32]

/-- The fields after the header. A payload announces its hash and its length, without a header. -/
def ItemKind.layout : ItemKind → Layout
  | document => [.text, .text, .blob]
  | documentTombstone => [.text, .text]
  | attachment => [.text, .text, .text, .text]
  | attachmentTombstone => [.text, .text]
  | attachmentStream => [.text, .word64]
  | counter => [.text, .text, .blob]
  | timeSeries => [.text, .text, .text, .time, .blob]
  | timeSeriesDeletedRange => [.text, .text, .text, .time, .time]
  | revisionTombstone => [.text, .text]

namespace ChangeHeader

def values (header : ChangeHeader) : layout.Values :=
  (header.changeVector, header.etag, header.modified, header.flags, ())

def ofValues : layout.Values → ChangeHeader
  | (changeVector, etag, modified, flags, ()) => ⟨changeVector, etag, modified, flags⟩

end ChangeHeader

namespace ChangeBody

def values : (body : ChangeBody) → body.kind.layout.Values
  | document id collection content => (id, collection, content, ())
  | documentTombstone id collection => (id, collection, ())
  | attachment documentId name contentType hash => (documentId, name, contentType, hash, ())
  | attachmentTombstone documentId name => (documentId, name, ())
  | counter documentId name values => (documentId, name, values, ())
  | timeSeries documentId name collection baseline segment =>
    (documentId, name, collection, baseline, segment, ())
  | timeSeriesDeletedRange documentId name collection first last =>
    (documentId, name, collection, first, last, ())
  | revisionTombstone revision collection => (revision, collection, ())

def ofValues? : (kind : ItemKind) → kind.layout.Values → Option ChangeBody
  | .document, (id, collection, content, ()) => some (document id collection content)
  | .documentTombstone, (id, collection, ()) => some (documentTombstone id collection)
  | .attachment, (documentId, name, contentType, hash, ()) =>
    some (attachment documentId name contentType hash)
  | .attachmentTombstone, (documentId, name, ()) => some (attachmentTombstone documentId name)
  | .attachmentStream, _ => none
  | .counter, (documentId, name, values, ()) => some (counter documentId name values)
  | .timeSeries, (documentId, name, collection, baseline, segment, ()) =>
    some (timeSeries documentId name collection baseline segment)
  | .timeSeriesDeletedRange, (documentId, name, collection, first, last, ()) =>
    some (timeSeriesDeletedRange documentId name collection first last)
  | .revisionTombstone, (revision, collection, ()) => some (revisionTombstone revision collection)

@[simp] theorem ofValues?_values (body : ChangeBody) :
    ofValues? body.kind body.values = some body := by
  cases body <;> rfl

theorem values_of_ofValues? {kind : ItemKind} {values : kind.layout.Values} {body : ChangeBody}
    (made : ofValues? kind values = some body) :
    body.kind = kind ∧ HEq body.values values := by
  unfold ofValues? at made
  split at made <;> cases made <;> exact ⟨rfl, .rfl⟩

end ChangeBody

namespace Change

def encode (change : Change) : Bytes :=
  change.kind.tag :: (ChangeHeader.layout.write change.header.values ++
    change.kind.layout.write change.body.values)

def decodeAs (kind : ItemKind) (bytes : Bytes) : Except WireFault Change :=
  match ChangeHeader.layout.read kind.describe bytes with
  | (.error fault, _) => .error fault
  | (.ok header, rest) =>
    match kind.layout.readWhole kind.describe rest with
    | .error fault => .error fault
    | .ok values =>
      match ChangeBody.ofValues? kind values with
      | some body => .ok ⟨.ofValues header, body⟩
      | none => .error .streamAmongItems

def decode (bytes : Bytes) : Except WireFault Change :=
  match bytes with
  | [] => .error (.fieldTruncated "replication item" 1 0)
  | tag :: rest =>
    match ItemKind.ofTag? tag with
    | none => .error (.unknownItemKind tag)
    | some kind => if kind = .attachmentStream then .error .streamAmongItems else decodeAs kind rest

/-- Whether every text and blob fits its length prefix. -/
def Fits (change : Change) : Prop :=
  ChangeHeader.layout.Fits change.header.values ∧ change.kind.layout.Fits change.body.values

theorem decode_eq_ok_iff {bytes : Bytes} {change : Change} :
    decode bytes = .ok change ↔ bytes = change.encode ∧ change.Fits := by
  constructor
  · intro found
    cases bytes with
    | nil => simp [decode] at found
    | cons tag rest =>
        simp only [decode] at found
        split at found
        · contradiction
        · rename_i kind known
          split at found
          · contradiction
          · simp only [decodeAs] at found
            split at found
            · contradiction
            · rename_i header left first
              split at found
              · contradiction
              · rename_i values last
                split at found
                · rename_i body made
                  cases found
                  obtain ⟨rfl, same⟩ := ChangeBody.values_of_ofValues? made
                  cases same
                  obtain ⟨rfl, headerFits⟩ := Layout.write_of_read first
                  obtain ⟨rfl, bodyFits⟩ := (Layout.readWhole_eq_ok_iff _).mp last
                  refine ⟨?_, headerFits, bodyFits⟩
                  rw [← ItemKind.tag_of_ofTag? known]
                  rfl
                · contradiction
  · rintro ⟨rfl, headerFits, bodyFits⟩
    have different : change.kind ≠ .attachmentStream := change.body.kind_ne_attachmentStream
    have first := Layout.read_write change.kind.describe headerFits
      (change.kind.layout.write change.body.values)
    have last := (Layout.readWhole_eq_ok_iff change.kind.describe).mpr ⟨rfl, bodyFits⟩
    have made : ChangeBody.ofValues? change.kind change.body.values = some change.body :=
      ChangeBody.ofValues?_values change.body
    simp only [encode, decode, ItemKind.ofTag?_tag, if_neg different, decodeAs, first, last, made]
    rfl

end Change

end DocumentReplication
