import DocumentReplication.ChangeVector
import DocumentReplication.Commit.Scheduler
import DocumentReplication.Commit.Slice.Json
import DocumentReplication.Connection.Basic
import DocumentReplication.Dictionary
import DocumentReplication.Fault
import DocumentReplication.Json.Reading
import DocumentReplication.Settings.Node
import DocumentReplication.Store.Partition
import DocumentReplication.Text.Numeral
import DocumentReplication.Time.Timestamp
import DocumentReplication.Wire.Batch
import DocumentReplication.Wire.Reader
import DocumentReplication.Wire.Reply

/-!
The forms in which tools see and hand in values: JSON documents, where octets are in hexadecimal,
moments are counted in milliseconds, and null stands for what is not there. An item is one object that
holds the kind, the fields of the header and the fields of the kind side by side. A store is an object
of its tables, each an object of its records; tables without records are left out. Sets of names are
sorted.
-/

namespace DocumentReplication

class Viewed (α : Type) where
  view : α → Json

class Given (α : Type) where
  given? : Json → Option α

export Viewed (view)
export Given (given?)

variable {α β : Type}

namespace Json

/-- A member of an object; one that is missing counts as null. -/
def member (json : Json) (name : String) : Json :=
  match json with
  | object members =>
    ((members.find? fun (key, _) => Piece.toString? key == some name).map (·.2)).getD null
  | _ => null

def isNull : Json → Bool
  | null => true
  | _ => false

def take? [Given α] (json : Json) (name : String) : Option α :=
  given? (json.member name)

def takeD [Given α] (json : Json) (name : String) (standard : α) : Option α :=
  if (json.member name).isNull then some standard else json.take? name

def toMembers? : Json → Option (List (String × Json))
  | object members => members.mapM fun (key, value) => do
    return (← Piece.toString? key, value)
  | _ => none

end Json

instance : Viewed Json := ⟨id⟩

instance : Given Json := ⟨some⟩

instance : Viewed String := ⟨Json.ofString⟩

instance : Given String := ⟨Json.toString?⟩

instance : Viewed Bool := ⟨.bool⟩

instance : Given Bool := ⟨Json.toBool?⟩

instance : Viewed Int := ⟨.integer⟩

instance : Given Int := ⟨Json.toInt?⟩

instance : Viewed Nat := ⟨fun number => .integer number⟩

instance : Given Nat := ⟨fun json => do
  let number ← json.toInt?
  if 0 ≤ number then some number.toNat else none⟩

instance : Viewed Int64 := ⟨fun number => view number.toInt⟩

instance : Given Int64 := ⟨Json.toSigned64?⟩

instance : Viewed UInt8 := ⟨fun number => view number.toNat⟩

instance : Given UInt8 := ⟨fun json => (json.toNatBelow? UInt8.size).map UInt8.ofNat⟩

instance : Viewed UInt32 := ⟨fun number => view number.toNat⟩

instance : Given UInt32 := ⟨fun json => (json.toNatBelow? UInt32.size).map UInt32.ofNat⟩

instance : Viewed UInt64 := ⟨fun number => view number.toNat⟩

instance : Given UInt64 := ⟨fun json => (json.toNatBelow? UInt64.size).map UInt64.ofNat⟩

instance : Viewed Timestamp := ⟨fun time => view time.millis⟩

instance : Given Timestamp := ⟨fun json => json.toInt? >>= Timestamp.ofMillis?⟩

instance [Viewed α] : Viewed (Option α) := ⟨fun value => (value.map view).getD .null⟩

instance [Given α] : Given (Option α) := ⟨Json.nullable given?⟩

instance [Viewed α] : Viewed (List α) := ⟨fun values => .array (values.map view)⟩

/-- No list at all is an empty one. -/
instance [Given α] : Given (List α) := ⟨fun json =>
  if json.isNull then some [] else json.toList? >>= (·.mapM given?)⟩

instance [Viewed α] [Viewed β] : Viewed (α × β) :=
  ⟨fun (first, second) => .array [view first, view second]⟩

instance [Viewed α] : Viewed (Dictionary String α) :=
  ⟨fun table => .ofMembers (table.entries.map fun (key, value) => (key, view value))⟩

instance [Given α] : Given (Dictionary String α) := ⟨fun json => do
  let members ← json.toMembers?
  return .ofList (← members.mapM fun (key, value) => do return (key, ← given? value))⟩

def hexadecimal (bytes : Bytes) : String :=
  String.ofList (bytes.flatMap fun byte =>
    [Hexadecimal.digitChar (byte.toNat / 16), Hexadecimal.digitChar (byte.toNat % 16)])

def ofPairs? : List Char → Option Bytes
  | [] => some []
  | [_] => none
  | high :: low :: rest => do
    let byte := 16 * (← Hexadecimal.digitValue? high) + (← Hexadecimal.digitValue? low)
    return UInt8.ofNat byte :: (← ofPairs? rest)

instance (priority := 2000) : Viewed Bytes := ⟨fun bytes => view (hexadecimal bytes)⟩

instance (priority := 2000) : Given Bytes := ⟨fun json => do
  ofPairs? (← json.toString?).toList⟩

instance : Viewed VectorEntry := ⟨fun entry =>
  .array [view entry.tag, view entry.etag, view entry.instanceId]⟩

instance : Given VectorEntry := ⟨fun json => do
  match ← json.toList? with
  | [tag, etag, id] => return ⟨← given? tag, ← given? etag, ← given? id⟩
  | _ => none⟩

instance : Viewed ChangeVector.Standing := ⟨fun
  | .update => view "Update"
  | .alreadyMerged => view "AlreadyMerged"
  | .conflict => view "Conflict"⟩

namespace Fault

def kindName : Fault → String
  | stream _ => "Io"
  | database _ => "Database"
  | wire _ => "Protocol"
  | vector _ => "InvalidChangeVector"
  | missingAttachment .. => "MissingAttachment"
  | network _ => "Network"
  | shutdown => "Shutdown"
  | rejected _ => "ConnectionRejected"
  | unsupported _ => "Unsupported"
  | transaction _ => "Transaction"
  | storage _ => "Storage"
  | record _ => "Serialization"
  | settings _ => "Config"
  | internal _ => "Internal"

def Class.name : Class → String
  | protocolViolation => "ProtocolViolation"
  | missingAttachment => "MissingAttachment"
  | networkFault => "TransientNetworkFault"
  | shutdownRequested => "ShutdownRequested"
  | unsupportedOperation => "UnsupportedOperation"
  | internal => "Internal"

end Fault

namespace FieldKind

def viewValue : (kind : FieldKind) → kind.Value → Json
  | byte, value => view value
  | word32, value => view value
  | word64, value => view value
  | signed, value => view value
  | time, value => view value
  | text, value => view value
  | blob, value => view value

def givenValue? : (kind : FieldKind) → Json → Option kind.Value
  | byte, json => given? json
  | word32, json => given? json
  | word64, json => given? json
  | signed, json => given? json
  | time, json => given? json
  | text, json => given? json
  | blob, json => given? json

end FieldKind

namespace Layout

def viewValues : List String → (layout : Layout) → layout.Values → List (String × Json)
  | name :: names, kind :: layout, (value, values) =>
    (name, kind.viewValue value) :: viewValues names layout values
  | _, _, _ => []

def givenValues? (json : Json) : List String → (layout : Layout) → Option layout.Values
  | _, [] => some ()
  | [], _ :: _ => none
  | name :: names, kind :: layout => do
    return (← kind.givenValue? (json.member name), ← givenValues? json names layout)

end Layout

def ChangeHeader.fieldNames : List String := ["cv", "etag", "modified", "flags"]

instance : Viewed Change := ⟨fun change =>
  .ofMembers (("kind", view change.kind.name) ::
    ChangeHeader.layout.viewValues ChangeHeader.fieldNames change.header.values ++
    change.kind.layout.viewValues change.kind.fieldNames change.body.values)⟩

instance : Viewed Item := ⟨fun
  | .change change => view change
  | .payload hash content =>
    .ofMembers [("kind", view ItemKind.attachmentStream.name), ("hash", view hash),
      ("data", view content)]⟩

instance : Given Item := ⟨fun json => do
  let name : String ← json.take? "kind"
  let kind ← ItemKind.all.find? (·.name == name)
  if kind = .attachmentStream then
    return .payload (← json.take? "hash") (← json.take? "data")
  else
    let header ← ChangeHeader.layout.givenValues? json ChangeHeader.fieldNames
    let values ← kind.layout.givenValues? json kind.fieldNames
    return .change ⟨.ofValues header, ← ChangeBody.ofValues? kind values⟩⟩

/-- A payload of a batch, announced by its own hash unless another one is given. -/
def givenPayload? (json : Json) : Option (String × Bytes) := do
  let content : Bytes ← json.take? "data"
  return (← json.takeD "hash" (contentHash content), content)

instance : Given Batch := ⟨fun json => do
  let payloads : List Json ← json.take? "streams"
  return ⟨← json.take? "etag", ← json.take? "items", ← payloads.mapM givenPayload?⟩⟩

instance : Viewed SliceOutcome := ⟨fun outcome =>
  .ofMembers [("applied", view outcome.applied), ("skipped", view outcome.skipped)]⟩

instance : Given Slice := ⟨fun json => do
  return ⟨← json.take? "source", ← json.take? "etag", ← json.take? "items"⟩⟩

namespace StoredKind

def viewValue : (kind : StoredKind) → kind.Value → Json
  | text, value => view value
  | blob, value => view value
  | word32, value => view value
  | moment, value => view value
  | etags, value => view value

def givenValue? : (kind : StoredKind) → Json → Option kind.Value
  | text, json => given? json
  | blob, json => given? json
  | word32, json => given? json
  | moment, json => given? json
  | etags, json => given? json

end StoredKind

namespace StoredLayout

def viewValues : List String → (layout : StoredLayout) → layout.Values → List (String × Json)
  | name :: names, kind :: layout, (value, values) =>
    (name, kind.viewValue value) :: viewValues names layout values
  | _, _, _ => []

def givenValues? (json : Json) : List String → (layout : StoredLayout) → Option layout.Values
  | _, [] => some ()
  | [], _ :: _ => none
  | name :: names, kind :: layout => do
    return (← kind.givenValue? (json.member name), ← givenValues? json names layout)

end StoredLayout

namespace Stored

def viewRecord {ρ : Type} [Stored ρ] (names : List String) (record : ρ) : Json :=
  .ofMembers ((layout ρ).viewValues names (values record))

def givenRecord? {ρ : Type} [Stored ρ] (names : List String) (json : Json) : Option ρ :=
  ((layout ρ).givenValues? json names).map ofValues

end Stored

namespace Table

def fieldNames : Table → List String
  | documents => ["id", "collection", "data", "flags", "cv", "modified"]
  | tombstones | revisionTombstones => ["id", "collection", "flags", "cv", "modified"]
  | attachments => ["document_id", "name", "content_type", "hash", "cv"]
  | attachmentBlobs => []
  | counters => ["document_id", "name", "values", "cv"]
  | timeSeries => ["document_id", "name", "collection", "baseline", "segment", "cv"]
  | timeSeriesRanges => ["document_id", "name", "collection", "from", "to", "cv"]
  | state => ["last_etag_from", "cv"]

def viewRecord (table : Table) (record : table.Record) : Json :=
  match table, record with
  | documents, record => Stored.viewRecord (ρ := DocumentRecord) documents.fieldNames record
  | tombstones, record => Stored.viewRecord (ρ := TombstoneRecord) tombstones.fieldNames record
  | revisionTombstones, record =>
    Stored.viewRecord (ρ := TombstoneRecord) revisionTombstones.fieldNames record
  | attachments, record => Stored.viewRecord (ρ := AttachmentRecord) attachments.fieldNames record
  | attachmentBlobs, content => view (α := Bytes) content
  | counters, record => Stored.viewRecord (ρ := CounterRecord) counters.fieldNames record
  | timeSeries, record => Stored.viewRecord (ρ := TimeSeriesRecord) timeSeries.fieldNames record
  | timeSeriesRanges, record =>
    Stored.viewRecord (ρ := DeletedRangeRecord) timeSeriesRanges.fieldNames record
  | state, record => Stored.viewRecord (ρ := ReplicationState) state.fieldNames record

def givenRecord? (json : Json) : (table : Table) → Option table.Record
  | documents => Stored.givenRecord? (ρ := DocumentRecord) documents.fieldNames json
  | tombstones => Stored.givenRecord? (ρ := TombstoneRecord) tombstones.fieldNames json
  | revisionTombstones =>
    Stored.givenRecord? (ρ := TombstoneRecord) revisionTombstones.fieldNames json
  | attachments => Stored.givenRecord? (ρ := AttachmentRecord) attachments.fieldNames json
  | attachmentBlobs => given? (α := Bytes) json
  | counters => Stored.givenRecord? (ρ := CounterRecord) counters.fieldNames json
  | timeSeries => Stored.givenRecord? (ρ := TimeSeriesRecord) timeSeries.fieldNames json
  | timeSeriesRanges => Stored.givenRecord? (ρ := DeletedRangeRecord) timeSeriesRanges.fieldNames json
  | state => Stored.givenRecord? (ρ := ReplicationState) state.fieldNames json

/-- What to store in a table: a record, or the octets of one. -/
def givenValue? (table : Table) (json : Json) : Option Bytes :=
  if (json.member "raw").isNull then (givenRecord? (json.member "record") table).map table.encode
  else json.take? "raw"

end Table

instance : Viewed ReplicationState := ⟨Table.state.viewRecord⟩

instance : Given ReplicationState := ⟨fun json => Table.givenRecord? json .state⟩

instance : Given Table := ⟨fun json => json.toString? >>= Table.ofName?⟩

def Partition.viewWith (form : Table → Bytes → Json) (store : Partition) : Json :=
  .ofMembers (Table.all.filterMap fun table =>
    match store.entriesOf table with
    | [] => none
    | entries => some (table.name,
      .ofMembers (entries.map fun entry => (entry.key, form table entry.value))))

def sortedNames (names : List String) : List String :=
  names.mergeSort (fun first second => first ≤ second)

instance : Viewed Context := ⟨fun context =>
  .ofMembers [("cv", view context.vectorText), ("etags", view context.etags),
    ("ignore", view (sortedNames context.ignored)), ("skip", view context.skipsValidation),
    ("cleared", view context.cleared)]⟩

instance : Viewed SchedulerStats := ⟨fun stats =>
  .ofMembers [("executed", view stats.executed), ("failed", view stats.failed),
    ("transactions", view stats.transactions), ("retries", view stats.retries),
    ("max_commands", view stats.maxCommands)]⟩

instance : Viewed SchedulerSettings := ⟨fun settings =>
  .ofMembers [("max_batch_size", view settings.maxBatch),
    ("queue_capacity", view settings.queueCapacity),
    ("write_timeout_ms", view settings.writeTimeoutMillis),
    ("ignored_db_ids", view (sortedNames settings.ignoredIds))]⟩

instance : Viewed ReplicationSettings := ⟨fun settings =>
  .ofMembers [("node_tag", view settings.nodeTag), ("bind_addr", view settings.bindAddress.text),
    ("partition_count", view settings.partitionCount), ("max_frame_size", view settings.maxFrame),
    ("max_items_per_batch", view settings.maxItems),
    ("max_attachment_streams_per_batch", view settings.maxStreams),
    ("max_attachment_size", view settings.maxAttachment),
    ("partition_queue_capacity", view settings.partitionQueueCapacity),
    ("merger", view settings.scheduler),
    ("active_connection_timeout_ms", view settings.activeTimeoutMillis),
    ("idle_timeout_ms", view settings.idleTimeoutMillis)]⟩

instance : Viewed NodeSettings := ⟨fun settings =>
  .ofMembers [("data_dir", view settings.dataDirectory), ("map_size", view settings.mapSize),
    ("in_memory", view settings.inMemory), ("replication", view settings.replication)]⟩

instance : Viewed Message := ⟨fun
  | .poll => .ofMembers [("type", view "Notify")]
  | .heartbeat lastEtag => .ofMembers [("type", view "Heartbeat"), ("etag", view lastEtag)]
  | .documents header =>
    .ofMembers [("type", view "Documents"), ("etag", view header.lastEtag),
      ("items", view header.itemCount), ("streams", view header.streamCount)]⟩

instance : Given FrameKind := ⟨fun json => do
  let name ← json.toString?
  FrameKind.all.find? (·.name == name)⟩

instance : Viewed SpooledPayload := ⟨fun payload =>
  .ofMembers [("hash", view payload.hash), ("offset", view payload.offset),
    ("len", view payload.length)]⟩

instance : Viewed AttachmentReference := ⟨fun reference =>
  .ofMembers [("document_id", view reference.documentId), ("name", view reference.name)]⟩

instance : Viewed ConnectionStats := ⟨fun stats =>
  .ofMembers [("messages", view stats.messages), ("batches", view stats.batches),
    ("items_received", view stats.itemsReceived), ("items_applied", view stats.itemsApplied),
    ("heartbeats", view stats.heartbeats), ("nacks", view stats.nacks),
    ("errors", view stats.errors)]⟩

end DocumentReplication
