import DocumentReplication.Digest.ContentHash
import DocumentReplication.Wire.Descriptor
import DocumentReplication.Wire.Message

/-!
A batch as a sending node writes it: a documents header, a frame for every change, and for every
payload the frame that announces it, followed by the payload itself.
-/

namespace DocumentReplication

structure Batch where
  lastEtag : Int64
  changes : List Item
  payloads : List (String × Bytes)

namespace Batch

def ofPayloads (lastEtag : Int64) (changes : List Item) (payloads : List Bytes) : Batch :=
  ⟨lastEtag, changes, payloads.map fun payload => (contentHash payload, payload)⟩

def header (batch : Batch) : BatchHeader :=
  ⟨batch.lastEtag, batch.changes.length, batch.payloads.length⟩

def encodeChange (item : Item) : Bytes :=
  Frame.encode ⟨.item, item.encode⟩

def encodePayload (announced : String × Bytes) : Bytes :=
  Frame.encode ⟨.attachmentStream,
    PayloadDescriptor.encode ⟨announced.1, UInt64.ofNat announced.2.length⟩⟩ ++ announced.2

def encode (batch : Batch) : Bytes :=
  (Message.documents batch.header).frame.encode ++ batch.changes.flatMap encodeChange ++
    batch.payloads.flatMap encodePayload

end Batch

end DocumentReplication
