import DocumentReplication.Fanout.Queue

/-!
The queue as it is worked on in place: a step changes one part of it after the other, and what it has
changed before it fails stays changed. `BatchQueue.begin` and what follows it give the queue that such
a step leaves when it succeeds.
-/

namespace DocumentReplication

inductive QueueStep where
  | begin
  | push (item : Item)
  | pushPayload (hash : String) (content : Bytes)
  | handOut
  | finish
  | abort
deriving DecidableEq, Repr

inductive QueueAnswer where
  | done
  | placed (partition : Nat)
  | copied (copies : Nat)
  | handedOut (slices : List PartitionSlice)
deriving DecidableEq, Repr

/-- What a step comes to where only success changes the queue. -/
def BatchQueue.act (step : QueueStep) (queue : BatchQueue) :
    Except Fault (QueueAnswer × BatchQueue) :=
  match step with
  | .begin => queue.begin.map fun next => (.done, next)
  | .push item => (queue.push item).map fun (partition, next) => (.placed partition, next)
  | .pushPayload hash content =>
    (queue.pushPayload hash content).map fun (copies, next) => (.copied copies, next)
  | .handOut => queue.handOut.map fun (slices, next) => (.handedOut slices, next)
  | .finish => queue.finish.map fun next => (.done, next)
  | .abort => .ok (.done, queue.abort)

/-- Work on a queue in place. Nothing comes of it at all where a list is read beyond its end. -/
abbrev QueueWork := ExceptT Fault (StateT BatchQueue Option)

namespace QueueWork

def demand (expected : QueueState) (action : QueueAction) : QueueWork Unit := do
  let queue ← get
  if queue.state ≠ expected then throw (.internal (.queueRefuses action queue.state))

def enqueue (partition : Nat) (item : Item) : QueueWork Unit := do
  let queue ← get
  let items ← queue.pending[partition]?
  set { queue with pending := queue.pending.set partition (items ++ [item]) }

def clear : QueueWork Unit := do
  modify fun queue => { queue with pending := queue.pending.map fun _ => [] }
  modify fun queue => { queue with references := queue.references.clear }
  modify fun queue => { queue with state := .empty }

def perform : QueueStep → QueueWork QueueAnswer
  | .begin => do
    demand .empty .beginBatch
    modify fun queue => { queue with state := .filling }
    return .done
  | .push item => do
    demand .filling .acceptItem
    let partition ← liftExcept ((← get).routing.route item)
    modify fun queue => { queue with references := (queue.references.observe partition item).2 }
    enqueue partition item
    return .placed partition
  | .pushPayload hash content => do
    demand .filling .acceptStream
    let copies := (← get).references.copies hash content
    forM copies fun (partition, item) => enqueue partition item
    return .copied copies.length
  | .handOut => do
    demand .filling .sealBatch
    let slices := (← get).pending.zipIdx.map fun (items, partition) => ⟨partition, items⟩
    modify fun queue => { queue with pending := queue.pending.map fun _ => [] }
    modify fun queue => { queue with state := .draining }
    return .handedOut slices
  | .finish => do
    demand .draining .finish
    clear
    return .done
  | .abort => do
    clear
    return .done

/-- What a step answers, and the queue it leaves. -/
def outcome (step : QueueStep) (queue : BatchQueue) :
    Option (Except Fault QueueAnswer × BatchQueue) :=
  (perform step).run.run queue

/-- The queue that some steps leave, whatever they answer. -/
def after (steps : List QueueStep) (queue : BatchQueue) : Option BatchQueue :=
  steps.foldlM (fun queue step => (outcome step queue).map (·.2)) queue

end QueueWork

end DocumentReplication
