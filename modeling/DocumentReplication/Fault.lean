import DocumentReplication.Text.Numeral
import DocumentReplication.Time.Elapsed
import DocumentReplication.Wire.Kind

/-!
What can go wrong between a sending node and a committed store. A fault is a cause with the values
that describe it; its wording is one function, and its class decides what becomes of the connection
it arose on.
-/

namespace DocumentReplication

inductive StreamError where
  | reset
  | aborted
  | broken
  | ended
  | notConnected
  | timedOut
  | other (description : String)
deriving DecidableEq, Repr

inductive VectorFault where
  | noColon (token : String)
  | noDash (token : String)
  | emptyPart (token : String)
  | badEtag (token : String)
  | etagTooLarge (token : String)
  | emptyToken
  | duplicateInstance (instanceId : String)
  | described (text : String)
deriving DecidableEq, Repr

inductive WireFault where
  | fieldTruncated (record : String) (needed left : Nat)
  | trailingBytes (record : String) (count : Nat)
  | textNotUtf8 (record : String)
  | timeOutOfRange (record : String) (millis : Int)
  | unknownItemKind (tag : UInt8)
  | streamAmongItems
  | notADescriptor (kind : ItemKind)
  | unknownFrameKind (tag : UInt8)
  | frameTooLarge (length limit : Nat)
  | truncated (record : String)
  | checksumMismatch (stored computed : UInt32)
  | unexpectedFrame (expected found : FrameKind)
  | malformedHeader
  | missingHeaderField (field : String)
  | negativeCount (field : String) (count : Int)
  | unknownMessageType (name : String)
  | tooManyItems (count limit : Nat)
  | tooManyStreams (count limit : Nat)
  | malformedReply
  | attachmentTooLarge (hash : String) (length limit : Nat)
  | contentMismatch (declared computed : String)
  | described (text : String)
deriving DecidableEq, Repr

inductive QueueState where
  | empty
  | filling
  | draining
deriving DecidableEq, Repr

def QueueState.name : QueueState → String
  | empty => "Empty"
  | filling => "Filling"
  | draining => "Draining"

inductive QueueAction where
  | beginBatch
  | acceptItem
  | acceptStream
  | sealBatch
  | finish
deriving DecidableEq, Repr

def QueueAction.describe : QueueAction → String
  | beginBatch => "begin a batch"
  | acceptItem => "accept items"
  | acceptStream => "accept attachment streams"
  | sealBatch => "seal"
  | finish => "finish"

inductive InternalFault where
  | payloadOutsideSpool (hash : String) (offset length size : Nat)
  | streamNotRouted (hash : String)
  | queueRefuses (action : QueueAction) (state : QueueState)
  | sliceDropped (partition : Nat)
  | noScheduler (partition : Nat)
  | vectorWouldLose (current previous : String)
  | described (text : String)
deriving DecidableEq, Repr

inductive TransactionFault where
  | writerBusy (waited : Elapsed)
  | schedulerStopped
  | described (text : String)
deriving DecidableEq, Repr

inductive StorageFault where
  | partitionFailing (partition : Nat)
  | described (text : String)
deriving DecidableEq, Repr

inductive DatabaseFault where
  | emptyKey
  | described (text : String)
deriving DecidableEq, Repr

inductive RecordFault where
  | unreadable
  | oversized
  | described (text : String)
deriving DecidableEq, Repr

inductive NetworkFault where
  | silent (limit : Elapsed)
  | described (text : String)
deriving DecidableEq, Repr

inductive RejectionFault where
  | sourceActive (source : String) (idle : Elapsed)
  | described (text : String)
deriving DecidableEq, Repr

inductive UnsupportedFault where
  | revisionWithoutDocument (revision : String)
  | described (text : String)
deriving DecidableEq, Repr

inductive SettingsFault where
  | noNodeTag
  | nodeTagWithSeparator (tag : String)
  | noPartitions
  | framesTooSmall
  | noItems
  | noPartitionQueue
  | noCommands
  | noCommandQueue
  | neverActive
  | neverIdle
  | notAnInstance (instanceId : String)
  | described (text : String)
deriving DecidableEq, Repr

inductive Fault where
  | stream (cause : StreamError)
  | database (cause : DatabaseFault)
  | wire (cause : WireFault)
  | vector (cause : VectorFault)
  | missingAttachment (hash documentId : String)
  | network (cause : NetworkFault)
  | shutdown
  | rejected (cause : RejectionFault)
  | unsupported (cause : UnsupportedFault)
  | transaction (cause : TransactionFault)
  | storage (cause : StorageFault)
  | record (cause : RecordFault)
  | settings (cause : SettingsFault)
  | internal (cause : InternalFault)
deriving DecidableEq, Repr

open Decimal (natText)

def StreamError.message : StreamError → String
  | reset => "connection reset"
  | aborted => "connection aborted"
  | broken => "broken pipe"
  | ended => "unexpected end of file"
  | notConnected => "not connected"
  | timedOut => "timed out"
  | other description => description

def VectorFault.message : VectorFault → String
  | noColon token => s!"missing ':' in '{token}'"
  | noDash token => s!"missing '-' in '{token}'"
  | emptyPart token => s!"empty tag or instance id in '{token}'"
  | badEtag token => s!"bad etag in '{token}'"
  | etagTooLarge token => s!"bad etag in '{token}': number too large to fit in target type"
  | emptyToken => "empty token"
  | duplicateInstance instanceId => s!"duplicate instance id '{instanceId}'"
  | described text => text

def WireFault.message : WireFault → String
  | fieldTruncated record needed left =>
    "Truncated " ++ record ++ ": needed " ++ natText needed ++ " more bytes, " ++ natText left ++
      " left"
  | trailingBytes record count =>
    record ++ ": " ++ natText count ++ " trailing bytes, field count mismatch"
  | textNotUtf8 record => record ++ ": string field is not UTF-8"
  | timeOutOfRange record millis =>
    record ++ ": timestamp " ++ Decimal.text millis ++ " out of range"
  | unknownItemKind tag => "Unknown replication item type: " ++ natText tag.toNat
  | streamAmongItems => "Attachment stream record found in the item section"
  | notADescriptor kind => "Expected an attachment stream record, got " ++ kind.name
  | unknownFrameKind tag => "Unknown frame kind: " ++ natText tag.toNat
  | frameTooLarge length limit =>
    "Frame of " ++ natText length ++ " bytes exceeds the " ++ natText limit ++ " byte limit"
  | truncated record => "Truncated " ++ record ++ ": stream ended mid-record"
  | checksumMismatch stored computed =>
    "CRC mismatch: expected " ++ Hexadecimal.text stored.toNat ++ ", got " ++
      Hexadecimal.text computed.toNat
  | unexpectedFrame expected found =>
    "Expected a " ++ expected.name ++ " frame, got " ++ found.name
  | malformedHeader => "Malformed message header"
  | missingHeaderField field => s!"Missing '{field}' field in message header"
  | negativeCount field count =>
    s!"'{field}' must not be negative, got " ++ Decimal.text count
  | unknownMessageType name => "Unknown message type: " ++ name
  | tooManyItems count limit =>
    "ItemsCount " ++ natText count ++ " exceeds the limit of " ++ natText limit
  | tooManyStreams count limit =>
    "AttachmentStreamsCount " ++ natText count ++ " exceeds the limit of " ++ natText limit
  | malformedReply => "Malformed reply"
  | attachmentTooLarge hash length limit =>
    "Attachment " ++ hash ++ " of " ++ natText length ++ " bytes exceeds the " ++ natText limit ++
      " byte limit"
  | contentMismatch declared computed =>
    "Attachment stream hash mismatch: declared " ++ declared ++ ", computed " ++ computed
  | described text => text

def InternalFault.message : InternalFault → String
  | payloadOutsideSpool hash offset length size =>
    "Spooled stream " ++ hash ++ " lies outside the spool (" ++ natText offset ++ " + " ++
      natText length ++ " > " ++ natText size ++ ")"
  | streamNotRouted hash =>
    "Attachment stream " ++ hash ++ " is distributed by content hash, not routed"
  | queueRefuses action state =>
    "Replication queue cannot " ++ action.describe ++ " in state " ++ state.name
  | sliceDropped partition =>
    "Partition " ++ natText partition ++ " consumer dropped its slice without reporting"
  | noScheduler partition => "No transaction merger for partition " ++ natText partition
  | vectorWouldLose current previous =>
    "Database change vector " ++ current ++ " would lose entries of " ++ previous
  | described text => text

def TransactionFault.message : TransactionFault → String
  | writerBusy waited => "Timed out after " ++ waited.text ++ " waiting for the write transaction"
  | schedulerStopped => "Transaction merger is stopped"
  | described text => text

def StorageFault.message : StorageFault → String
  | partitionFailing partition => "partition " ++ natText partition ++ " is failing"
  | described text => text

def DatabaseFault.message : DatabaseFault → String
  | emptyKey => "keys must not be empty"
  | described text => text

def RecordFault.message : RecordFault → String
  | unreadable => "record is unreadable"
  | oversized => "record is too large"
  | described text => text

def NetworkFault.message : NetworkFault → String
  | silent limit => "No message received for " ++ limit.text
  | described text => text

def RejectionFault.message : RejectionFault → String
  | sourceActive source idle =>
    "an active connection from " ++ source ++ " already exists (last message " ++ idle.text ++
      " ago)"
  | described text => text

def UnsupportedFault.message : UnsupportedFault → String
  | revisionWithoutDocument revision =>
    "Revision tombstone " ++ revision ++
      " carries no document id and cannot be routed in sharded mode"
  | described text => text

def SettingsFault.message : SettingsFault → String
  | noNodeTag => "node_tag must not be empty"
  | nodeTagWithSeparator tag => s!"node_tag '{tag}' must not contain ':', '-' or ','"
  | noPartitions => "partition_count must be at least 1"
  | framesTooSmall => "max_frame_size must be at least 1024"
  | noItems => "max_items_per_batch must be at least 1"
  | noPartitionQueue => "partition_queue_capacity must be at least 1"
  | noCommands => "merger.max_batch_size must be at least 1"
  | noCommandQueue => "merger.queue_capacity must be at least 1"
  | neverActive => "active_connection_timeout must be positive"
  | neverIdle => "idle_timeout must be positive"
  | notAnInstance instanceId => s!"ignored db id '{instanceId}' is not a valid instance id"
  | described text => text

/-- Conditions under which the peer is expected to connect again. -/
def StreamError.isSocketFault : StreamError → Bool
  | reset | aborted | broken | ended | notConnected | timedOut => true
  | other _ => false

namespace Fault

def message : Fault → String
  | stream cause => "I/O error: " ++ cause.message
  | database cause => "Database error: " ++ cause.message
  | wire cause => "Protocol violation: " ++ cause.message
  | vector cause => "Invalid change vector: " ++ cause.message
  | missingAttachment hash documentId =>
    s!"Missing attachment {hash} referenced by '{documentId}'"
  | network cause => "Network error: " ++ cause.message
  | shutdown => "Shutdown requested"
  | rejected cause => "Connection rejected: " ++ cause.message
  | unsupported cause => "Unsupported operation: " ++ cause.message
  | transaction cause => "Transaction error: " ++ cause.message
  | storage cause => "Storage error: " ++ cause.message
  | record cause => "Serialization error: " ++ cause.message
  | settings cause => "Configuration error: " ++ cause.message
  | internal cause => "Internal error: " ++ cause.message

inductive Class where
  | protocolViolation
  | missingAttachment
  | networkFault
  | shutdownRequested
  | unsupportedOperation
  | internal
deriving DecidableEq, Repr

def classify : Fault → Class
  | wire _ | vector _ => .protocolViolation
  | missingAttachment .. => .missingAttachment
  | network _ => .networkFault
  | stream cause => if cause.isSocketFault then .networkFault else .internal
  | shutdown => .shutdownRequested
  | unsupported _ => .unsupportedOperation
  | _ => .internal

/-- Every fault but a missing attachment ends the connection it arose on. -/
def endsConnection (fault : Fault) : Bool :=
  fault.classify != .missingAttachment

def isNetworkFault (fault : Fault) : Bool :=
  fault.classify == .networkFault

/-- The end of a stream inside a record is a violation by the sender; between records it is a fault
of the network. -/
def within (record : String) : Fault → Fault
  | stream .ended => wire (.truncated record)
  | fault => fault

theorem endsConnection_eq_false_iff {fault : Fault} :
    fault.endsConnection = false ↔ ∃ hash documentId, fault = .missingAttachment hash documentId := by
  cases fault with
  | stream cause =>
      simp only [endsConnection, classify]
      split <;> simp
  | _ => simp [endsConnection, classify]

end Fault

end DocumentReplication
