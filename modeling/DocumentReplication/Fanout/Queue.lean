import DocumentReplication.Fanout.References
import DocumentReplication.Fanout.Routing

/-!
The queue of a connection: the items of the batch that is being read, sorted by partition. A batch
is begun, filled and sealed, which hands its slices out; the next one can begin when all of these
were applied, or when the batch was given up.
-/

namespace DocumentReplication

structure PartitionSlice where
  partition : Nat
  items : List Item
deriving DecidableEq, Repr

structure BatchQueue where
  state : QueueState
  routing : Routing
  pending : List (List Item)
  references : References
deriving Repr

namespace BatchQueue

def create (routing : Routing) : BatchQueue :=
  ⟨.empty, routing, List.replicate routing.partitionCount [], .empty routing.partitionCount⟩

/-- The items that wait for a partition; none for one that does not exist. -/
def pendingFor (queue : BatchQueue) (partition : Nat) : List Item :=
  queue.pending.getD partition []

/-- An action is refused outside the state it belongs to. -/
def require (expected : QueueState) (action : QueueAction) (queue : BatchQueue) :
    Except Fault Unit :=
  if queue.state = expected then .ok () else .error (.internal (.queueRefuses action queue.state))

def begin (queue : BatchQueue) : Except Fault BatchQueue := do
  queue.require .empty .beginBatch
  return { queue with state := .filling }

def append (partition : Nat) (item : Item) (pending : List (List Item)) : List (List Item) :=
  pending.modify partition (· ++ [item])

def push (item : Item) (queue : BatchQueue) : Except Fault (Nat × BatchQueue) := do
  queue.require .filling .acceptItem
  let partition ← queue.routing.route item
  return (partition, { queue with
    pending := append partition item queue.pending
    references := (queue.references.observe partition item).2 })

/-- Queues a copy of a payload for every partition that needs it, and tells how many do. -/
def pushPayload (hash : String) (content : Bytes) (queue : BatchQueue) :
    Except Fault (Nat × BatchQueue) := do
  queue.require .filling .acceptStream
  let copies := queue.references.copies hash content
  let pending := copies.foldl (fun pending (partition, item) => append partition item pending)
    queue.pending
  return (copies.length, { queue with pending := pending })

def fill (items : List Item) (payloads : List (String × Bytes)) (queue : BatchQueue) :
    Except Fault BatchQueue := do
  let queue ← items.foldlM (fun queue item => (push item queue).map (·.2)) queue
  payloads.foldlM (fun queue (hash, content) => (pushPayload hash content queue).map (·.2)) queue

def handOut (queue : BatchQueue) : Except Fault (List PartitionSlice × BatchQueue) := do
  queue.require .filling .sealBatch
  let slices := queue.pending.zipIdx.map fun (items, partition) => ⟨partition, items⟩
  return (slices, { queue with state := .draining, pending := queue.pending.map fun _ => [] })

def abort (queue : BatchQueue) : BatchQueue :=
  { queue with
    state := .empty
    pending := queue.pending.map fun _ => []
    references := queue.references.clear }

def finish (queue : BatchQueue) : Except Fault BatchQueue := do
  queue.require .draining .finish
  return queue.abort

end BatchQueue

end DocumentReplication
