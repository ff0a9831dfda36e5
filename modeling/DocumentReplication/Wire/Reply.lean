import DocumentReplication.Json.Reading
import DocumentReplication.Wire.Frame

/-!
Replies: every message that was read is answered by one message frame with a JSON object.
-/

namespace DocumentReplication

inductive ReplyKind where
  | ok
  | missingAttachments
  | error
deriving DecidableEq, Repr

def ReplyKind.name : ReplyKind → String
  | ok => "Ok"
  | missingAttachments => "MissingAttachments"
  | error => "Error"

def ReplyKind.ofName? (name : String) : Option ReplyKind :=
  [ReplyKind.ok, .missingAttachments, .error].find? (·.name == name)

structure Reply where
  kind : ReplyKind
  messageType : String
  lastEtagAccepted : Int64
  exception : Option String
  nodeTag : Option String
deriving DecidableEq, Repr

namespace Reply

def accepted (messageType : String) (lastEtag : Int64) (nodeTag : String) : Reply :=
  ⟨.ok, messageType, lastEtag, none, some nodeTag⟩

/-- The batch has to be sent again with its attachment payloads. -/
def attachmentsMissing (messageType reason : String) : Reply :=
  ⟨.missingAttachments, messageType, -1, some reason, none⟩

/-- The connection ends after this reply. -/
def failed (messageType reason : String) : Reply :=
  ⟨.error, messageType, -1, some reason, none⟩

def member (name : String) : Option String → List (String × Json)
  | some value => [(name, .ofString value)]
  | none => []

def toJson (reply : Reply) : Json :=
  .ofMembers ([("Type", .ofString reply.kind.name), ("MessageType", .ofString reply.messageType),
    ("LastEtagAccepted", .integer reply.lastEtagAccepted.toInt)] ++
    member "Exception" reply.exception ++ member "NodeTag" reply.nodeTag)

def frame (reply : Reply) : Frame :=
  ⟨.message, reply.toJson.write⟩

def fieldNames : List Json.FieldName :=
  [⟨"Type", false⟩, ⟨"MessageType", false⟩, ⟨"LastEtagAccepted", false⟩, ⟨"Exception", true⟩,
   ⟨"NodeTag", true⟩]

def kindOfJson? (json : Json) : Option ReplyKind := do
  let (name, content) ← json.toVariant?
  match content with
  | none | some .null => ReplyKind.ofName? name
  | some _ => none

def ofJson? (json : Json) : Option Reply := do
  match ← json.toFields? fieldNames with
  | [kind, messageType, lastEtag, exception, nodeTag] =>
    return {
      kind := ← Json.required kindOfJson? kind
      messageType := ← Json.required Json.toString? messageType
      lastEtagAccepted := ← Json.required Json.toSigned64? lastEtag
      exception := ← Json.optional Json.toString? exception
      nodeTag := ← Json.optional Json.toString? nodeTag }
  | _ => none

def ofPayload (payload : Bytes) : Except Fault Reply :=
  match (Json.parse? payload).bind ofJson? with
  | some reply => .ok reply
  | none => .error (.wire .malformedReply)

def read (limit : Nat) (bytes : Bytes) : Intake Bytes Reply :=
  (Frame.readKind .message limit bytes).check ofPayload

end Reply

end DocumentReplication
