import DocumentReplication.ChangeVector.Text
import DocumentReplication.Store.Transaction
import DocumentReplication.Text.Lowercase
import DocumentReplication.Wire.Item

/-!
What becomes of a change when it meets what is stored: where a change belongs, which vector is
stored there, and whether the change is written and with which vector.
-/

namespace DocumentReplication

namespace ChangeVector

/-- The part of an incoming vector that may be stored, and whether an ignored instance was dropped
from it. -/
def storable (ignored : List String) (vector : ChangeVector) : ChangeVector × Bool :=
  let stripped := vector.withoutTransactional
  (stripped.without ignored, 0 < stripped.countIn ignored)

/-- The vector to write over a stored one, unless the stored one already knows everything. Where
each knows something the other does not, the change is written with what both know. -/
def settle (incoming stored : ChangeVector) : Option ChangeVector :=
  match compare incoming stored with
  | .alreadyMerged => none
  | .update => some incoming
  | .conflict => some (incoming.merge stored)

end ChangeVector

def Table.vectorOf : (table : Table) → table.Record → String
  | .documents, record => DocumentRecord.changeVector record
  | .tombstones, record | .revisionTombstones, record => TombstoneRecord.changeVector record
  | .attachments, record => AttachmentRecord.changeVector record
  | .attachmentBlobs, _ => ""
  | .counters, record => CounterRecord.changeVector record
  | .timeSeries, record => TimeSeriesRecord.changeVector record
  | .timeSeriesRanges, record => DeletedRangeRecord.changeVector record
  | .state, record => ReplicationState.changeVector record

def Transaction.vectorAt (work : Transaction) (table : Table) (key : String) :
    Except Fault (Option String) := do
  match ← work.get table key with
  | none => return none
  | some bytes => return some (table.vectorOf (← table.decode bytes))

/-- Keys do not tell capitals apart. -/
def joinKey (parts : List String) : String :=
  String.intercalate "|" (parts.map Text.lowercase)

namespace Change

def table (change : Change) : Table :=
  match change.body with
  | .document .. => .documents
  | .documentTombstone .. => .tombstones
  | .attachment .. | .attachmentTombstone .. => .attachments
  | .counter .. => .counters
  | .timeSeries .. => .timeSeries
  | .timeSeriesDeletedRange .. => .timeSeriesRanges
  | .revisionTombstone .. => .revisionTombstones

def key (change : Change) : String :=
  match change.body with
  | .document id .. | .documentTombstone id .. => Text.lowercase id
  | .attachment documentId name .. | .attachmentTombstone documentId name
  | .counter documentId name _ => joinKey [documentId, name]
  | .timeSeries documentId name _ baseline _ =>
    joinKey [documentId, name, Decimal.text baseline.millis]
  | .timeSeriesDeletedRange documentId name _ first last =>
    joinKey [documentId, name, Decimal.text first.millis ++ "-" ++ Decimal.text last.millis]
  | .revisionTombstone revision _ => revision

/-- The table that must not keep a record at the same key once the change is written: a document
and its tombstone exclude each other, and a deleted attachment leaves nothing behind. -/
def displaced? (change : Change) : Option Table :=
  match change.body with
  | .document .. => some .tombstones
  | .documentTombstone .. => some .documents
  | .attachmentTombstone .. => some .attachments
  | _ => none

def record? (change : Change) (vector : String) : Except Fault (Option Bytes) :=
  let header := change.header
  match change.body with
  | .document id collection content =>
    (Stored.octets (ρ := DocumentRecord)
      ⟨id, collection, content, header.flags, vector, header.modified⟩).map some
  | .documentTombstone id collection =>
    (Stored.octets (ρ := TombstoneRecord)
      ⟨id, collection, header.flags, vector, header.modified⟩).map some
  | .attachment documentId name contentType hash =>
    (Stored.octets (ρ := AttachmentRecord) ⟨documentId, name, contentType, hash, vector⟩).map some
  | .attachmentTombstone .. => .ok none
  | .counter documentId name values =>
    (Stored.octets (ρ := CounterRecord) ⟨documentId, name, values, vector⟩).map some
  | .timeSeries documentId name collection baseline segment =>
    (Stored.octets (ρ := TimeSeriesRecord)
      ⟨documentId, name, collection, baseline, segment, vector⟩).map some
  | .timeSeriesDeletedRange documentId name collection first last =>
    (Stored.octets (ρ := DeletedRangeRecord)
      ⟨documentId, name, collection, first, last, vector⟩).map some
  | .revisionTombstone revision collection =>
    (Stored.octets (ρ := TombstoneRecord)
      ⟨revision, collection, header.flags, vector, header.modified⟩).map some

/-- The vector a change meets: of the live document or else of its tombstone, and otherwise of the
record in its table. -/
def storedVector (change : Change) (work : Transaction) : Except Fault (Option String) :=
  match change.body with
  | .document .. | .documentTombstone .. => do
    match ← work.vectorAt .documents change.key with
    | some vector => return some vector
    | none => work.vectorAt .tombstones change.key
  | _ => work.vectorAt change.table change.key

end Change

end DocumentReplication
