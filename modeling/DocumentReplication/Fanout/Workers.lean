import DocumentReplication.Commit.Scheduler
import DocumentReplication.Fanout.Barrier
import DocumentReplication.Fanout.Queue

/-!
The workers of a node: one for each partition, each handing the slices of its partition to the
scheduler of its store. All connections share them.
-/

namespace DocumentReplication

structure Workers where
  partitionCount : Nat
  schedulers : List Scheduler
  /-- The stores of the partitions after those, which no scheduler serves. -/
  unserved : List Partition
  /-- A partition whose slices all fail. -/
  failing : Option Nat
deriving Repr

namespace Workers

/-- Workers for some partitions, of which the first `served` stores get a scheduler. -/
def start (settings : SchedulerSettings) (partitionCount served : Nat) (stores : List Partition) :
    Workers :=
  ⟨partitionCount, (stores.take served).map (Scheduler.start settings), stores.drop served, none⟩

def stores (workers : Workers) : List Partition :=
  workers.schedulers.map (·.store) ++ workers.unserved

def setStore (index : Nat) (store : Partition) (workers : Workers) : Workers :=
  let served := workers.schedulers.length
  if index < served then
    { workers with schedulers :=
        workers.schedulers.modify index fun scheduler => { scheduler with store := store } }
  else { workers with unserved := workers.unserved.set (index - served) store }

theorem stores_start (settings : SchedulerSettings) (partitionCount served : Nat)
    (stores : List Partition) : (start settings partitionCount served stores).stores = stores := by
  simp [start, Workers.stores, Function.comp_def, Scheduler.start]

/-- Applies the slice of a batch. There is nothing to do for an empty one. -/
def apply (source : String) (lastEtag : Int64) (slice : PartitionSlice) (workers : Workers) :
    Except Fault SliceOutcome × Workers :=
  if slice.items.isEmpty then (.ok ⟨0, 0⟩, workers)
  else if workers.failing = some slice.partition then
    (.error (.storage (.partitionFailing slice.partition)), workers)
  else match workers.schedulers[slice.partition]? with
    | none => (.error (.internal (.noScheduler slice.partition)), workers)
    | some scheduler =>
      let (outcomes, scheduler) := scheduler.submit [Slice.execute ⟨source, lastEtag, slice.items⟩]
      let outcome := outcomes.headD (.error (.transaction .schedulerStopped))
      (outcome, { workers with schedulers := workers.schedulers.set slice.partition scheduler })

/-- Applies the slices of a sealed batch; each partition reports on its own. -/
def dispatch (source : String) (lastEtag : Int64) :
    List PartitionSlice → Barrier → Workers → Barrier × Workers
  | [], barrier, workers => (barrier, workers)
  | slice :: rest, barrier, workers =>
    let (outcome, workers) := workers.apply source lastEtag slice
    dispatch source lastEtag rest (barrier.report slice.partition outcome) workers

end Workers

inductive BatchOutcome where
  /-- Every partition committed its slice. -/
  | applied (total : SliceOutcome)
  /-- The content of an attachment was neither sent nor stored. -/
  | attachmentsMissing (reason : Fault)

namespace BatchOutcome

def faults (outcomes : List (Nat × Except Fault SliceOutcome)) : List Fault :=
  outcomes.filterMap fun (_, outcome) =>
    match outcome with
    | .ok _ => none
    | .error fault => some fault

def total (outcomes : List (Nat × Except Fault SliceOutcome)) : SliceOutcome :=
  outcomes.foldl (fun total (_, outcome) =>
    match outcome with
    | .ok part => ⟨total.applied + part.applied, total.skipped + part.skipped⟩
    | .error _ => total) ⟨0, 0⟩

/-- The first fault that ends the connection decides; without one, the first missing attachment
does. -/
def ofOutcomes (outcomes : List (Nat × Except Fault SliceOutcome)) : Except Fault BatchOutcome :=
  let faults := faults outcomes
  match faults.find? (·.endsConnection), faults with
  | some fault, _ => .error fault
  | none, fault :: _ => .ok (attachmentsMissing fault)
  | none, [] => .ok (applied (total outcomes))

end BatchOutcome

end DocumentReplication
