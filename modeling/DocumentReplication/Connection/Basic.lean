import DocumentReplication.Fanout.Workers
import DocumentReplication.Settings.Replication
import DocumentReplication.Wire.Reader
import DocumentReplication.Wire.Reply

/-!
A connection from a sending node. It waits for a message, answers it and waits for the next one; the
header of a batch is followed by the batch itself, which is answered once every partition reported
on its slice. So there is at most one batch on its way.

A missing attachment is answered and the connection goes on. Any other fault ends the connection,
after a reply that tells the fault unless the network itself is at fault.
-/

namespace DocumentReplication

structure ConnectionStats where
  messages : Nat
  batches : Nat
  itemsReceived : Nat
  itemsApplied : Nat
  heartbeats : Nat
  /-- Batches that missed an attachment. -/
  nacks : Nat
  errors : Nat
deriving DecidableEq, Repr, Inhabited

inductive ConnectionState where
  | awaiting
  | receiving (header : BatchHeader)
  | closed (outcome : Except Fault Unit)

namespace ConnectionState

def name : ConnectionState → String
  | awaiting => "ReadingMessage"
  | receiving _ => "DocumentsBatch"
  | closed _ => "Closed"

def isOpen : ConnectionState → Bool
  | closed _ => false
  | _ => true

end ConnectionState

structure Connection where
  /-- Who sends, as the replication state calls it. -/
  source : String
  settings : ReplicationSettings
  reader : WireReader
  queue : BatchQueue
  state : ConnectionState
  waitingSince : Elapsed
  lastEtag : Int64
  stats : ConnectionStats

structure Turn where
  connection : Connection
  workers : Workers
  reply : Option Reply

namespace Connection

def start (settings : ReplicationSettings) (source : String) (workers : Workers) (now : Elapsed) :
    Except Fault Connection := do
  let routing ← Routing.among workers.partitionCount
  return {
    source := source
    settings := settings
    reader := .start settings.maxFrame settings.maxAttachment
    queue := .create routing
    state := .awaiting
    waitingSince := now
    lastEtag := 0
    stats := ⟨0, 0, 0, 0, 0, 0, 0⟩ }

def outcome? (connection : Connection) : Option (Except Fault Unit) :=
  match connection.state with
  | .closed outcome => some outcome
  | _ => none

def await (now : Elapsed) (connection : Connection) : Connection :=
  { connection with state := .awaiting, waitingSince := now }

def close (outcome : Except Fault Unit) (connection : Connection) : Connection :=
  { connection with state := .closed outcome, queue := connection.queue.abort }

def fail (messageType : String) (fault : Fault) (connection : Connection) :
    Connection × Option Reply :=
  let stats := { connection.stats with errors := connection.stats.errors + 1 }
  let ended := { connection with stats := stats }.close (.error fault)
  (ended, if fault.isNetworkFault then none else some (.failed messageType fault.message))

def cancel (connection : Connection) : Connection :=
  if connection.state.isOpen then connection.close (.ok ()) else connection

def accept (message : Message) (connection : Connection) : Reply :=
  .accepted message.type connection.lastEtag connection.settings.nodeTag

/-- Takes a batch as far as the partitions, which report on it. -/
def dispatch (header : BatchHeader) (batch : IncomingBatch) (connection : Connection)
    (workers : Workers) : Except Fault (Barrier × BatchQueue × Workers) := do
  let payloads ← batch.payloads.mapM fun payload => do
    return (payload.hash, ← connection.reader.load payload)
  let queue ← connection.queue.fill (batch.changes.map .change) payloads
  let (slices, queue) ← queue.handOut
  let (barrier, workers) := workers.dispatch connection.source header.lastEtag slices
    (.arm slices.length)
  return (barrier, ← queue.finish, workers)

def conclude (now : Elapsed) (header : BatchHeader) (outcome : BatchOutcome)
    (connection : Connection) : Connection × Option Reply :=
  let stats := connection.stats
  let message := Message.documents header
  match outcome with
  | .applied total =>
    let connection := { connection.await now with
      lastEtag := header.lastEtag
      stats := { stats with
        batches := stats.batches + 1, itemsApplied := stats.itemsApplied + total.applied } }
    (connection, some (connection.accept message))
  | .attachmentsMissing reason =>
    ({ connection.await now with stats := { stats with nacks := stats.nacks + 1 } },
      some (.attachmentsMissing message.type reason.message))

def apply (now : Elapsed) (header : BatchHeader) (batch : IncomingBatch)
    (connection : Connection) (workers : Workers) : Turn :=
  let stats := connection.stats
  let connection := { connection with
    stats := { stats with itemsReceived := stats.itemsReceived + batch.changes.length } }
  let message := Message.documents header
  match connection.dispatch header batch workers with
  | .error fault =>
    let (connection, reply) := connection.fail message.type fault
    ⟨connection, workers, reply⟩
  | .ok (barrier, queue, workers) =>
    let connection := { connection with queue := queue }
    let (connection, reply) := match BatchOutcome.ofOutcomes barrier.outcomes with
      | .ok outcome => connection.conclude now header outcome
      | .error fault => connection.fail message.type fault
    ⟨connection, workers, reply⟩

def expect (header : BatchHeader) (connection : Connection) : Connection × Option Reply :=
  let limits := connection.settings
  let prepared := do
    onWire (header.check limits.maxItems limits.maxStreams)
    connection.queue.begin
  match prepared with
  | .ok queue => ({ connection with queue := queue, state := .receiving header }, none)
  | .error fault => connection.fail (Message.documents header).type fault

def handle (now : Elapsed) (message : Message) (connection : Connection) :
    Connection × Option Reply :=
  let stats := { connection.stats with messages := connection.stats.messages + 1 }
  let greeted := { stats with heartbeats := stats.heartbeats + 1 }
  match message with
  | .documents header => { connection with stats := stats }.expect header
  | .poll =>
    let connection := { connection.await now with stats := greeted }
    (connection, some (connection.accept message))
  | .heartbeat lastEtag =>
    let connection := { connection.await now with stats := greeted, lastEtag := lastEtag }
    (connection, some (connection.accept message))

/-- What the connection does with the octets that have arrived, unless it has to wait for more. -/
def turn? (now : Elapsed) (connection : Connection) (workers : Workers) : Option Turn :=
  match connection.state with
  | .closed _ => none
  | .awaiting =>
    match connection.reader.readMessage with
    | .starved .. => none
    | .refused fault reader =>
      let (connection, reply) := { connection with reader := reader }.fail Message.unknownType fault
      some ⟨connection, workers, reply⟩
    | .done message reader =>
      let (connection, reply) := { connection with reader := reader }.handle now message
      some ⟨connection, workers, reply⟩
  | .receiving header =>
    match connection.reader.readBatch header with
    | .starved .. => none
    | .refused fault reader =>
      let (connection, reply) :=
        { connection with reader := reader }.fail (Message.documents header).type fault
      some ⟨connection, workers, reply⟩
    | .done batch reader => some ({ connection with reader := reader }.apply now header batch workers)

/-- If the octets that have arrived leave the connection waiting for more: the type of the message
that is incomplete, the fault that holds if no more come, and what is left then. -/
def starvation? (connection : Connection) : Option (String × Fault × WireReader) :=
  match connection.state with
  | .closed _ => none
  | .awaiting =>
    match connection.reader.readMessage with
    | .starved fault reader => some (Message.unknownType, fault, reader)
    | _ => none
  | .receiving header =>
    match connection.reader.readBatch header with
    | .starved fault reader => some ((Message.documents header).type, fault, reader)
    | _ => none

def deadline? (connection : Connection) : Option Elapsed :=
  match connection.state with
  | .awaiting =>
    let patience := Elapsed.ofMillis connection.settings.idleTimeoutMillis
    some ⟨connection.waitingSince.micros + patience.micros⟩
  | _ => none

def elapse (now : Elapsed) (connection : Connection) : Connection :=
  match connection.deadline? with
  | some deadline =>
    if deadline.micros ≤ now.micros then
      (connection.fail Message.unknownType
        (.network (.silent (.ofMillis connection.settings.idleTimeoutMillis)))).1
    else connection
  | none => connection

end Connection

end DocumentReplication
