import DocumentReplication.Wire.Item
import DocumentReplication.Wire.Message
import DocumentReplication.Wire.Spool

/-!
The reading side of a connection: the octets that have arrived and not been read, and the spool that
payloads of the current batch go to.

Memory is not modelled: what a batch announces is only counted down, and no room is taken in advance
for the announced numbers of changes and payloads.
-/

namespace DocumentReplication

structure WireReader where
  maxFrame : Nat
  maxAttachment : Nat
  spool : Spool
  unread : Bytes
deriving Repr

structure IncomingBatch where
  changes : List Change
  payloads : List SpooledPayload
deriving DecidableEq, Repr

def onWire {α : Type} (outcome : Except WireFault α) : Except Fault α :=
  outcome.mapError .wire

namespace WireReader

def start (maxFrame maxAttachment : Nat) : WireReader :=
  ⟨maxFrame, maxAttachment, .empty, []⟩

def receive (bytes : Bytes) (reader : WireReader) : WireReader :=
  { reader with unread := reader.unread ++ bytes }

def readFrame (kind : FrameKind) (reader : WireReader) : Intake WireReader Bytes :=
  (Frame.readKind kind reader.maxFrame reader.unread).lift fun rest => { reader with unread := rest }

def readMessage (reader : WireReader) : Intake WireReader Message :=
  (reader.readFrame .message).check fun payload => onWire (Message.ofPayload payload)

def readChange (reader : WireReader) : Intake WireReader Change :=
  (reader.readFrame .item).check fun payload => onWire (Change.decode payload)

def readDescriptor (reader : WireReader) : Intake WireReader PayloadDescriptor :=
  (reader.readFrame .attachmentStream).check fun payload =>
    onWire (PayloadDescriptor.decode payload)

def readPayload (reader : WireReader) : Intake WireReader SpooledPayload :=
  reader.readDescriptor.andThen fun descriptor reader =>
    (Spool.accept reader.maxAttachment descriptor reader.spool reader.unread).lift
      fun (spool, rest) => { reader with spool := spool, unread := rest }

def readMany {α : Type} (read : WireReader → Intake WireReader α) :
    Nat → WireReader → Intake WireReader (List α)
  | 0, reader => .done [] reader
  | count + 1, reader =>
    (read reader).andThen fun first reader =>
      (readMany read count reader).andThen fun others reader => .done (first :: others) reader

/-- Reads what a documents header announced. The stream ending before that is a violation by the
sender. -/
def readBatch (header : BatchHeader) (reader : WireReader) : Intake WireReader IncomingBatch :=
  let batch :=
    (readMany readChange header.itemCount { reader with spool := .empty }).andThen
      fun changes reader =>
        (readMany readPayload header.streamCount reader).andThen fun payloads reader =>
          .done ⟨changes, payloads⟩ reader
  batch.mapFault (Fault.within "batch")

def load (payload : SpooledPayload) (reader : WireReader) : Except Fault Bytes :=
  reader.spool.read payload

end WireReader

end DocumentReplication
