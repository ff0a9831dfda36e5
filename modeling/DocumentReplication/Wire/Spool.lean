import DocumentReplication.Digest.ContentHash
import DocumentReplication.Wire.Descriptor
import DocumentReplication.Wire.Intake

/-!
The spool holds the payloads of one batch behind each other until they are copied to partitions. A
payload is named by its hash and its region. One whose digest differs from the announced hash is
refused, but keeps its region, so that later payloads never overlap it.
-/

namespace DocumentReplication

structure SpooledPayload where
  hash : String
  offset : Nat
  length : Nat
deriving DecidableEq, Repr

structure Spool where
  content : Bytes
deriving DecidableEq, Repr

namespace Spool

def empty : Spool := ⟨[]⟩

def size (spool : Spool) : Nat := spool.content.length

def accept (limit : Nat) (descriptor : PayloadDescriptor) (spool : Spool) (bytes : Bytes) :
    Intake (Spool × Bytes) SpooledPayload :=
  let length := descriptor.length.toNat
  if limit < length then
    .refused (.wire (.attachmentTooLarge descriptor.hash length limit)) (spool, bytes)
  else match bytes.split? length with
    | none => .starved (.wire (.truncated "attachment stream")) (spool, [])
    | some (payload, rest) =>
      let grown : Spool := ⟨spool.content ++ payload⟩
      let computed := contentHash payload
      if computed = descriptor.hash then .done ⟨computed, spool.size, length⟩ (grown, rest)
      else .refused (.wire (.contentMismatch descriptor.hash computed)) (grown, rest)

def read (spool : Spool) (payload : SpooledPayload) : Except Fault Bytes :=
  if spool.size < payload.offset + payload.length then
    .error (.internal (.payloadOutsideSpool payload.hash payload.offset payload.length spool.size))
  else .ok ((spool.content.drop payload.offset).take payload.length)

end Spool

end DocumentReplication
