import DocumentReplication.Fault
import DocumentReplication.Store.StoredField
import DocumentReplication.Store.Table

/-!
The records of the tables and the octets they are stored as. Reading ignores octets after the last
field; whatever else is wrong with a record is the same fault.
-/

namespace DocumentReplication

structure DocumentRecord where
  id : String
  collection : String
  content : Bytes
  flags : UInt32
  changeVector : String
  modified : Timestamp
deriving DecidableEq, Repr

/-- Of a deleted document or revision. -/
structure TombstoneRecord where
  id : String
  collection : String
  flags : UInt32
  changeVector : String
  modified : Timestamp
deriving DecidableEq, Repr

structure AttachmentRecord where
  documentId : String
  name : String
  contentType : String
  hash : String
  changeVector : String
deriving DecidableEq, Repr

structure CounterRecord where
  documentId : String
  name : String
  values : Bytes
  changeVector : String
deriving DecidableEq, Repr

structure TimeSeriesRecord where
  documentId : String
  name : String
  collection : String
  baseline : Timestamp
  segment : Bytes
  changeVector : String
deriving DecidableEq, Repr

structure DeletedRangeRecord where
  documentId : String
  name : String
  collection : String
  first : Timestamp
  last : Timestamp
  changeVector : String
deriving DecidableEq, Repr

/-- How far a partition has followed its sources, and what it knows altogether. -/
structure ReplicationState where
  lastEtagFrom : Dictionary String Int64
  changeVector : String
deriving Repr

namespace ReplicationState

def empty : ReplicationState := ⟨.empty, ""⟩

instance : Inhabited ReplicationState := ⟨empty⟩

end ReplicationState

class Stored (ρ : Type) where
  layout : StoredLayout
  values : ρ → layout.Values
  ofValues : layout.Values → ρ
  ofValues_values : ∀ record, ofValues (values record) = record

instance : Stored DocumentRecord where
  layout := [.text, .text, .blob, .word32, .text, .moment]
  values record := (record.id, record.collection, record.content, record.flags,
    record.changeVector, record.modified, ())
  ofValues := fun (id, collection, content, flags, changeVector, modified, ()) =>
    ⟨id, collection, content, flags, changeVector, modified⟩
  ofValues_values _ := rfl

instance : Stored TombstoneRecord where
  layout := [.text, .text, .word32, .text, .moment]
  values record := (record.id, record.collection, record.flags, record.changeVector,
    record.modified, ())
  ofValues := fun (id, collection, flags, changeVector, modified, ()) =>
    ⟨id, collection, flags, changeVector, modified⟩
  ofValues_values _ := rfl

instance : Stored AttachmentRecord where
  layout := [.text, .text, .text, .text, .text]
  values record := (record.documentId, record.name, record.contentType, record.hash,
    record.changeVector, ())
  ofValues := fun (documentId, name, contentType, hash, changeVector, ()) =>
    ⟨documentId, name, contentType, hash, changeVector⟩
  ofValues_values _ := rfl

instance : Stored CounterRecord where
  layout := [.text, .text, .blob, .text]
  values record := (record.documentId, record.name, record.values, record.changeVector, ())
  ofValues := fun (documentId, name, values, changeVector, ()) =>
    ⟨documentId, name, values, changeVector⟩
  ofValues_values _ := rfl

instance : Stored TimeSeriesRecord where
  layout := [.text, .text, .text, .moment, .blob, .text]
  values record := (record.documentId, record.name, record.collection, record.baseline,
    record.segment, record.changeVector, ())
  ofValues := fun (documentId, name, collection, baseline, segment, changeVector, ()) =>
    ⟨documentId, name, collection, baseline, segment, changeVector⟩
  ofValues_values _ := rfl

instance : Stored DeletedRangeRecord where
  layout := [.text, .text, .text, .moment, .moment, .text]
  values record := (record.documentId, record.name, record.collection, record.first, record.last,
    record.changeVector, ())
  ofValues := fun (documentId, name, collection, first, last, changeVector, ()) =>
    ⟨documentId, name, collection, first, last, changeVector⟩
  ofValues_values _ := rfl

instance : Stored ReplicationState where
  layout := [.etags, .text]
  values state := (state.lastEtagFrom, state.changeVector, ())
  ofValues := fun (lastEtagFrom, changeVector, ()) => ⟨lastEtagFrom, changeVector⟩
  ofValues_values _ := rfl

namespace Stored

variable {ρ : Type} [Stored ρ]

def encode (record : ρ) : Bytes :=
  (layout ρ).write (values record)

def octets (record : ρ) : Except Fault Bytes :=
  if (layout ρ).Fits (values record) then .ok (encode record) else .error (.record .oversized)

def decode? (bytes : Bytes) : Option ρ :=
  ((layout ρ).read? bytes).map fun (values, _) => ofValues values

def decode (bytes : Bytes) : Except Fault ρ :=
  match decode? bytes with
  | some record => .ok record
  | none => .error (.record .unreadable)

end Stored

namespace Table

@[reducible] def Record : Table → Type
  | documents => DocumentRecord
  | tombstones | revisionTombstones => TombstoneRecord
  | attachments => AttachmentRecord
  | attachmentBlobs => Bytes
  | counters => CounterRecord
  | timeSeries => TimeSeriesRecord
  | timeSeriesRanges => DeletedRangeRecord
  | state => ReplicationState

def encode : (table : Table) → table.Record → Bytes
  | documents, record => Stored.encode (ρ := DocumentRecord) record
  | tombstones, record | revisionTombstones, record =>
    Stored.encode (ρ := TombstoneRecord) record
  | attachments, record => Stored.encode (ρ := AttachmentRecord) record
  | attachmentBlobs, content => content
  | counters, record => Stored.encode (ρ := CounterRecord) record
  | timeSeries, record => Stored.encode (ρ := TimeSeriesRecord) record
  | timeSeriesRanges, record => Stored.encode (ρ := DeletedRangeRecord) record
  | state, record => Stored.encode (ρ := ReplicationState) record

/-- The contents of blobs are stored as they are. -/
def decode : (table : Table) → Bytes → Except Fault table.Record
  | documents, bytes => Stored.decode (ρ := DocumentRecord) bytes
  | tombstones, bytes | revisionTombstones, bytes => Stored.decode (ρ := TombstoneRecord) bytes
  | attachments, bytes => Stored.decode (ρ := AttachmentRecord) bytes
  | attachmentBlobs, bytes => .ok bytes
  | counters, bytes => Stored.decode (ρ := CounterRecord) bytes
  | timeSeries, bytes => Stored.decode (ρ := TimeSeriesRecord) bytes
  | timeSeriesRanges, bytes => Stored.decode (ρ := DeletedRangeRecord) bytes
  | state, bytes => Stored.decode (ρ := ReplicationState) bytes

end Table

end DocumentReplication
