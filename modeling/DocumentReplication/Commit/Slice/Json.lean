import DocumentReplication.Commit.Slice
import DocumentReplication.Json.Reading
import DocumentReplication.Time.InternetDate

/-!
Slices as JSON documents, so that a command can be written down and taken up again. An item is an
object with its kind as the only key; octets are arrays of numbers and moments internet dates.
-/

namespace DocumentReplication

namespace Json

def ofBytes (bytes : Bytes) : Json :=
  array (bytes.map fun byte => integer byte.toNat)

def ofTimestamp (time : Timestamp) : Json :=
  ofString (InternetDate.text time)

def toTimestamp? (json : Json) : Option Timestamp := do
  InternetDate.ofText? (← json.toString?)

def toRecord? (names : List String) (json : Json) : Option (List Json) := do
  let values ← json.toFields? (names.map fun name => ⟨name, false⟩)
  values.mapM id

end Json

open Json (ofString ofBytes ofTimestamp ofMembers toTimestamp? toRecord?)

def ChangeHeader.toJson (header : ChangeHeader) : Json :=
  ofMembers [("change_vector", ofString header.changeVector), ("etag", .integer header.etag.toInt),
    ("last_modified", ofTimestamp header.modified), ("flags", .integer header.flags.toNat)]

def ChangeBody.members : ChangeBody → List (String × Json)
  | document id collection content =>
    [("id", ofString id), ("collection", ofString collection), ("data", ofBytes content)]
  | documentTombstone id collection =>
    [("id", ofString id), ("collection", ofString collection)]
  | attachment documentId name contentType hash =>
    [("document_id", ofString documentId), ("name", ofString name),
     ("content_type", ofString contentType), ("hash", ofString hash)]
  | attachmentTombstone documentId name =>
    [("document_id", ofString documentId), ("name", ofString name)]
  | counter documentId name values =>
    [("document_id", ofString documentId), ("name", ofString name), ("values", ofBytes values)]
  | timeSeries documentId name collection baseline segment =>
    [("document_id", ofString documentId), ("name", ofString name),
     ("collection", ofString collection), ("baseline", ofTimestamp baseline),
     ("segment", ofBytes segment)]
  | timeSeriesDeletedRange documentId name collection first last =>
    [("document_id", ofString documentId), ("name", ofString name),
     ("collection", ofString collection), ("from", ofTimestamp first), ("to", ofTimestamp last)]
  | revisionTombstone revision collection =>
    [("id", ofString revision), ("collection", ofString collection)]

def Item.toJson : Item → Json
  | .change entry =>
    ofMembers [(entry.kind.name, ofMembers (("header", entry.header.toJson) :: entry.body.members))]
  | .payload hash content =>
    ofMembers [(ItemKind.attachmentStream.name,
      ofMembers [("hash", ofString hash), ("data", ofBytes content)])]

def Slice.toJson (slice : Slice) : Json :=
  ofMembers [("source", ofString slice.source), ("last_document_etag", .integer slice.lastEtag.toInt),
    ("items", .array (slice.items.map Item.toJson))]

def ChangeHeader.ofJson? (json : Json) : Option ChangeHeader := do
  match ← json.toRecord? ["change_vector", "etag", "last_modified", "flags"] with
  | [changeVector, etag, modified, flags] =>
    return ⟨← changeVector.toString?, ← etag.toSigned64?, ← modified.toTimestamp?,
      UInt32.ofNat (← flags.toNatBelow? UInt32.size)⟩
  | _ => none

def ItemKind.fieldNames : ItemKind → List String
  | document => ["id", "collection", "data"]
  | documentTombstone | revisionTombstone => ["id", "collection"]
  | attachment => ["document_id", "name", "content_type", "hash"]
  | attachmentTombstone => ["document_id", "name"]
  | attachmentStream => ["hash", "data"]
  | counter => ["document_id", "name", "values"]
  | timeSeries => ["document_id", "name", "collection", "baseline", "segment"]
  | timeSeriesDeletedRange => ["document_id", "name", "collection", "from", "to"]

def ChangeBody.ofFields? (kind : ItemKind) (fields : List Json) : Option ChangeBody := do
  match kind, fields with
  | .document, [id, collection, content] =>
    return document (← id.toString?) (← collection.toString?) (← content.toBytes?)
  | .documentTombstone, [id, collection] =>
    return documentTombstone (← id.toString?) (← collection.toString?)
  | .attachment, [documentId, name, contentType, hash] =>
    return attachment (← documentId.toString?) (← name.toString?) (← contentType.toString?)
      (← hash.toString?)
  | .attachmentTombstone, [documentId, name] =>
    return attachmentTombstone (← documentId.toString?) (← name.toString?)
  | .counter, [documentId, name, values] =>
    return counter (← documentId.toString?) (← name.toString?) (← values.toBytes?)
  | .timeSeries, [documentId, name, collection, baseline, segment] =>
    return timeSeries (← documentId.toString?) (← name.toString?) (← collection.toString?)
      (← baseline.toTimestamp?) (← segment.toBytes?)
  | .timeSeriesDeletedRange, [documentId, name, collection, first, last] =>
    return timeSeriesDeletedRange (← documentId.toString?) (← name.toString?)
      (← collection.toString?) (← first.toTimestamp?) (← last.toTimestamp?)
  | .revisionTombstone, [revision, collection] =>
    return revisionTombstone (← revision.toString?) (← collection.toString?)
  | _, _ => none

def Item.ofFields? (kind : ItemKind) (json : Json) : Option Item := do
  if kind = .attachmentStream then
    match ← json.toRecord? kind.fieldNames with
    | [hash, content] => return .payload (← hash.toString?) (← content.toBytes?)
    | _ => none
  else
    match ← json.toRecord? ("header" :: kind.fieldNames) with
    | header :: fields =>
      return .change ⟨← ChangeHeader.ofJson? header, ← ChangeBody.ofFields? kind fields⟩
    | [] => none

def Item.ofJson? (json : Json) : Option Item := do
  let (name, content) ← json.toVariant?
  let kind ← ItemKind.all.find? (·.name == name)
  Item.ofFields? kind (← content)

def Slice.ofJson? (json : Json) : Option Slice := do
  match ← json.toRecord? ["source", "last_document_etag", "items"] with
  | [source, lastEtag, items] =>
    return ⟨← source.toString?, ← lastEtag.toSigned64?, ← (← items.toList?).mapM Item.ofJson?⟩
  | _ => none

end DocumentReplication
