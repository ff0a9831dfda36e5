import DocumentReplication.Fault
import DocumentReplication.Json.Reading
import DocumentReplication.Wire.Frame

/-!
Messages of a sending node. The payload of a message frame is empty for a poll, and otherwise a JSON
header; a documents header announces how many items and payloads follow.
-/

namespace DocumentReplication

structure BatchHeader where
  lastEtag : Int64
  itemCount : Nat
  streamCount : Nat
deriving DecidableEq, Repr

inductive Message where
  | poll
  | heartbeat (lastEtag : Int64)
  | documents (header : BatchHeader)
deriving DecidableEq, Repr

namespace BatchHeader

def check (maxItems maxStreams : Nat) (header : BatchHeader) : Except WireFault Unit :=
  if maxItems < header.itemCount then .error (.tooManyItems header.itemCount maxItems)
  else if maxStreams < header.streamCount then
    .error (.tooManyStreams header.streamCount maxStreams)
  else .ok ()

end BatchHeader

namespace Message

def type : Message → String
  | poll => "Notify"
  | heartbeat _ => "Heartbeat"
  | documents _ => "Documents"

def unknownType : String := "Unknown"

def header : Message → Bytes
  | poll => []
  | heartbeat lastEtag =>
    (Json.ofMembers [("Type", .ofString "Heartbeat"),
      ("LastDocumentEtag", .integer lastEtag.toInt)]).write
  | documents header =>
    (Json.ofMembers [("Type", .ofString "Documents"),
      ("LastDocumentEtag", .integer header.lastEtag.toInt), ("ItemsCount", .integer header.itemCount),
      ("AttachmentStreamsCount", .integer header.streamCount)]).write

def frame (message : Message) : Frame :=
  ⟨.message, message.header⟩

/-- The fields of a header, of which none has to be there yet. -/
structure HeaderFields where
  type : Option String
  lastEtag : Option Int64
  itemCount : Option Int64
  streamCount : Option Int64

def headerNames : List Json.FieldName :=
  [⟨"Type", false⟩, ⟨"LastDocumentEtag", false⟩, ⟨"ItemsCount", false⟩,
   ⟨"AttachmentStreamsCount", false⟩]

def HeaderFields.ofJson? (json : Json) : Option HeaderFields := do
  match ← json.toFields? headerNames with
  | [type, lastEtag, itemCount, streamCount] =>
    return {
      type := ← Json.optional Json.toString? type
      lastEtag := ← Json.optional Json.toSigned64? lastEtag
      itemCount := ← Json.optional Json.toSigned64? itemCount
      streamCount := ← Json.optional Json.toSigned64? streamCount }
  | _ => none

def count (field : String) : Option Int64 → Except WireFault Nat
  | none => .error (.missingHeaderField field)
  | some value =>
    if value.toInt < 0 then .error (.negativeCount field value.toInt) else .ok value.toInt.toNat

def ofFields (fields : HeaderFields) : Except WireFault Message :=
  match fields.type, fields.lastEtag with
  | none, _ => .error (.missingHeaderField "Type")
  | _, none => .error (.missingHeaderField "LastDocumentEtag")
  | some type, some lastEtag =>
    if type = "Documents" then do
      let itemCount ← count "ItemsCount" fields.itemCount
      let streamCount ← count "AttachmentStreamsCount" fields.streamCount
      return documents ⟨lastEtag, itemCount, streamCount⟩
    else if type = "Heartbeat" then .ok (heartbeat lastEtag)
    else .error (.unknownMessageType type)

def ofPayload (payload : Bytes) : Except WireFault Message :=
  if payload.isEmpty then .ok poll
  else match (Json.parse? payload).bind HeaderFields.ofJson? with
    | none => .error .malformedHeader
    | some fields => ofFields fields

end Message

end DocumentReplication
