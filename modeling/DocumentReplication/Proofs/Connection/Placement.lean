import DocumentReplication.Proofs.Commit.Ownership
import DocumentReplication.Proofs.Connection.Ready
import DocumentReplication.Wire.Batch

/-!
Every document lives in one place. The queue of a connection sorts the changes of a batch by their
documents, and a partition is only ever written by slices that were sorted for it. So whatever its
connections receive, every record is in the partition that its document is routed to, and there it is
kept under a key that the id of the document decides.
-/

namespace DocumentReplication

variable {routing : Routing} {partition : Nat} {change : Change} {id : String} {slice : Slice}
  {settings : ReplicationSettings} {connection : Connection} {workers next : Workers}
  {now : Elapsed} {header : BatchHeader} {batch : IncomingBatch} {store : Partition}

/-- A slice with what waited for a partition after a batch was sorted. -/
def Slice.SortedFor (routing : Routing) (partition : Nat) (slice : Slice) : Prop :=
  ∃ (changes : List Change) (payloads : List (String × Bytes)) (queue : BatchQueue),
    BatchQueue.fill (changes.map .change) payloads
        { BatchQueue.create routing with state := .filling } = .ok queue ∧
      slice.items = queue.pendingFor partition

theorem Routing.eq_of_partitionCount {first last : Routing}
    (same : first.partitionCount = last.partitionCount) : first = last := by
  cases first
  cases last
  cases same
  rfl

theorem Routing.partitionOf_of_route (routed : routing.route (.change change) = .ok partition)
    (about : change.documentId? = some id) : routing.partitionOf id = partition := by
  obtain ⟨header, body⟩ := change
  cases body <;> cases about <;> exact Except.ok.inj routed

theorem Slice.SortedFor.about (sorted : slice.SortedFor routing partition) :
    slice.About fun id => routing.partitionOf id = partition := by
  obtain ⟨changes, payloads, queue, fills, items⟩ := sorted
  have routes : queue.routing = routing := ((BatchQueue.shaped_create ..).fill fills).routes
  intro change member id about
  rw [Slice.mem_changes, items] at member
  have routed := (BatchQueue.routed_create routing .filling).fill fills partition change member
  rw [routes] at routed
  exact Routing.partitionOf_of_route routed about

namespace Connection

theorem dispatch_proceeds {barrier : Barrier} {queue : BatchQueue}
    (fresh : connection.queue = { BatchQueue.create connection.queue.routing with state := .filling })
    (done : connection.dispatch header batch workers = .ok (barrier, queue, next)) :
    workers.Proceeds (Slice.SortedFor connection.queue.routing) next := by
  simp only [Connection.dispatch, Except.bind_eq_ok_iff] at done
  obtain ⟨payloads, -, filled, fills, ⟨slices, emptied⟩, handed, _, -, same⟩ := done
  cases same
  rw [fresh] at fills
  refine Workers.dispatch_proceeds (fun slice member => ?_) _ _
  rw [BatchQueue.handOut_eq handed] at member
  obtain ⟨partition, -, rfl⟩ := List.mem_map.mp member
  exact ⟨batch.changes, payloads, filled, fills, rfl⟩

theorem apply_proceeds
    (fresh : connection.queue = { BatchQueue.create connection.queue.routing with state := .filling })
    (now : Elapsed) (header : BatchHeader) (batch : IncomingBatch) (workers : Workers) :
    workers.Proceeds (Slice.SortedFor connection.queue.routing)
      (connection.apply now header batch workers).workers := by
  unfold Connection.apply
  simp only
  split
  · exact .refl _ workers
  · rename_i done
    exact dispatch_proceeds fresh done

/-- A turn writes slices that were sorted for their partitions, if any. -/
theorem Ready.turn_proceeds {turn : Turn} (ready : connection.Ready settings)
    (taken : connection.turn? now workers = some turn) :
    workers.Proceeds (Slice.SortedFor connection.queue.routing) turn.workers := by
  simp only [turn?] at taken
  split at taken
  · contradiction
  · split at taken
    · contradiction
    · cases taken
      exact .refl _ workers
    · cases taken
      exact .refl _ workers
  · rename_i header waits
    have fresh := (ready.of_receiving waits).1.queue
    split at taken
    · contradiction
    · cases taken
      exact .refl _ workers
    · rename_i batch reader read
      cases taken
      let read := { connection with reader := reader }
      have stillFresh : read.queue =
          { BatchQueue.create read.queue.routing with state := .filling } := fresh
      exact apply_proceeds stillFresh now header batch workers

theorem Ready.step_proceeds (ready : connection.Ready settings) (now : Elapsed) (workers : Workers) :
    workers.Proceeds (Slice.SortedFor connection.queue.routing)
      (connection.step now workers).workers := by
  unfold Connection.step
  cases taken : connection.turn? now workers with
  | none => exact .refl _ workers
  | some turn => exact ready.turn_proceeds taken

theorem workers_starve (connection : Connection) (workers : Workers) :
    (connection.starve workers).workers = workers := by
  unfold Connection.starve
  split <;> rfl

end Connection

namespace Node

variable {κ : Type} [DecidableEq κ] {key : κ} {node : Node κ} {event : Event κ}
  {events : List (Event κ)}

/-- Slices that share a cycle come from connections, where they were sorted for its partition. -/
def Event.Sorted (routing : Routing) : Event κ → Prop
  | .cycle partition slices _ => ∀ slice ∈ slices, slice.SortedFor routing partition
  | _ => True

theorem advance_proceeds {admitted : Nat → Slice → Prop}
    {work : Connection → Workers → Connection.Progress}
    (proceeds : ∀ connection, node.connections.get? key = some connection →
      node.workers.Proceeds admitted (work connection node.workers).workers) :
    node.workers.Proceeds admitted (node.advance key work).2.workers := by
  unfold advance
  cases found : node.connections.get? key with
  | none => exact .refl _ _
  | some connection => exact proceeds connection found

/-- Whatever happens, a partition is only written by slices that were sorted for it. -/
theorem occur_proceeds (ready : node.Ready) (sound : node.Sound)
    (count : node.workers.partitionCount = routing.partitionCount) (sorted : event.Sorted routing) :
    node.workers.Proceeds (Slice.SortedFor routing) (node.occur event).2.workers := by
  cases event with
  | turn key =>
      refine advance_proceeds fun connection found => ?_
      have proceeds := (ready key connection found).step_proceeds node.now node.workers
      have same : connection.queue.routing = routing :=
        Routing.eq_of_partitionCount ((sound key connection found).partitionCount.trans count)
      rwa [same] at proceeds
  | hangUp key =>
      refine advance_proceeds fun connection _ => ?_
      rw [Connection.workers_starve]
      exact .refl _ _
  | arrive key bytes => exact advance_proceeds fun _ _ => .refl _ _
  | cycle partition slices verified => exact Workers.cycle_proceeds sorted node.workers
  | connect key source =>
      simp only [occur]
      cases opened : node.connect key source with
      | error fault => exact .refl _ _
      | ok next =>
          obtain ⟨connection, -, same⟩ := Except.bind_eq_ok_iff.mp opened
          cases same
          exact .refl _ _
  | cancel key =>
      simp only [occur, cancel]
      split <;> exact .refl _ _
  | forget | elapse | stop => exact .refl _ _

theorem after_proceeds (ready : node.Ready) (sound : node.Sound)
    (count : node.workers.partitionCount = routing.partitionCount)
    (sorted : ∀ event ∈ events, event.Sorted routing) :
    node.workers.Proceeds (Slice.SortedFor routing) (node.after events).workers := by
  induction events generalizing node with
  | nil => exact .refl _ _
  | cons event rest ih =>
      have first := occur_proceeds ready sound count (sorted event List.mem_cons_self)
      exact first.trans (ih (ready.occur event) (occur_spec sound event).1
        (first.partitionCount.trans count)
        fun later member => sorted later (List.mem_cons_of_mem _ member))

end Node

/-- In a node that started with empty stores all records of a partition are of documents that are
routed to it. -/
theorem Node.filed_after {κ : Type} [DecidableEq κ] (settings : ReplicationSettings)
    (scheduling : SchedulerSettings) (served : Nat) (backends : List Backend)
    {events : List (Event κ)} (sorted : ∀ event ∈ events, event.Sorted routing)
    (found : (after events (start settings (.start scheduling routing.partitionCount served
      (backends.map Partition.create)))).workers.stores[partition]? = some store) :
    store.begin.Filed fun id => routing.partitionOf id = partition := by
  let workers := Workers.start scheduling routing.partitionCount served
    (backends.map Partition.create)
  have proceeds := after_proceeds (ready_start settings workers) (sound_start settings workers) rfl
    sorted
  obtain ⟨first, ignored, started, runs⟩ := proceeds.getElem?_stores found
  rw [start, Workers.stores_start, List.getElem?_map, Option.map_eq_some_iff] at started
  obtain ⟨backend, -, rfl⟩ := started
  exact (Transaction.kept_filed _ ignored).runs (runs.mono fun _ sorted => sorted.about)
    (Transaction.filed_create backend _)

/-- A store keeps the document with a lowercase id, or its tombstone, at an address. -/
def Partition.KeepsDocument (store : Partition) (name : String) (address : Table × String) : Prop :=
  address.1 ∈ [Table.documents, .tombstones] ∧ ∃ entry id, store.entries.get? address = some entry ∧
    address.1.owner? entry.value = some id ∧ Text.lowercase id = name

namespace Transaction.Filed

variable {mine : String → Prop} {name : String} {address spot : Table × String}

theorem of_keepsDocument (filed : store.begin.Filed mine) (keeps : store.KeepsDocument name address) :
    address.2 = store.backend.storedKey name ∧ ∃ id, Text.lowercase id = name ∧ mine id := by
  obtain ⟨table, place⟩ := address
  obtain ⟨member, entry, id, found, owner, rfl⟩ := keeps
  have owned : table ∈ Table.owned :=
    (by decide : ∀ table ∈ [Table.documents, .tombstones], table ∈ Table.owned) table member
  obtain ⟨rfl, again, sameOwner, files, own⟩ := filed.placed table owned place entry found
  obtain rfl : id = again := Option.some.inj (owner.symm.trans sameOwner)
  rw [Table.Files, if_pos member] at files
  exact ⟨congrArg store.backend.storedKey files, id, rfl, own⟩

/-- A store keeps a document at one address. -/
theorem address_unique (filed : store.begin.Filed mine) (first : store.KeepsDocument name address)
    (second : store.KeepsDocument name spot) : address = spot := by
  have firstPlace := (filed.of_keepsDocument first).1
  have secondPlace := (filed.of_keepsDocument second).1
  obtain ⟨table, place⟩ := address
  obtain ⟨twin, other⟩ := spot
  obtain ⟨member, entry, -, found, -⟩ := first
  obtain ⟨twinMember, record, -, there, -⟩ := second
  simp only [List.mem_cons, List.not_mem_nil, or_false] at firstPlace secondPlace member twinMember
  subst firstPlace secondPlace
  have found : store.begin.lookup? _ = some entry := found
  have there : store.begin.lookup? _ = some record := there
  -- The document and its tombstone would be kept under the same key.
  have exclusive := filed.exclusive (store.backend.storedKey name)
  rcases member with rfl | rfl <;> rcases twinMember with rfl | rfl
  · rfl
  · simp [found, there] at exclusive
  · simp [found, there] at exclusive
  · rfl

end Transaction.Filed

/-- Every document lives in exactly one place. Whatever the connections of a node received since it
started with empty stores, all that a partition keeps of a document is in the partition the document
is routed to, and of all documents with the same lowercase id there is one record, live or deleted,
in all partitions together. -/
theorem Node.documents_placed {κ : Type} [DecidableEq κ] (settings : ReplicationSettings)
    (scheduling : SchedulerSettings) (routing : Routing) (served : Nat) (backends : List Backend)
    {events : List (Event κ)} (sorted : ∀ event ∈ events, event.Sorted routing) :
    let stores := (after events (start settings (.start scheduling routing.partitionCount served
      (backends.map Partition.create)))).workers.stores
    (∀ (partition : Nat) (store : Partition), stores[partition]? = some store →
      ∀ table ∈ Table.owned, ∀ entry ∈ store.entriesOf table,
        ∃ id, table.owner? entry.value = some id ∧ routing.partitionOf id = partition) ∧
    ∀ (partition other : Nat) (store twin : Partition) (name : String)
      (address spot : Table × String), stores[partition]? = some store →
      store.KeepsDocument name address → stores[other]? = some twin →
      twin.KeepsDocument name spot → partition = other ∧ address = spot := by
  intro stores
  constructor
  · intro partition store found table owned entry member
    have filed := filed_after settings scheduling served backends sorted found
    obtain ⟨place, there⟩ := Partition.exists_lookup member
    obtain ⟨-, id, owner, -, own⟩ := filed.placed table owned place entry there
    exact ⟨id, owner, own⟩
  · intro partition other store twin name address spot found keeps twinFound twinKeeps
    have filed := filed_after settings scheduling served backends sorted found
    have twinFiled := filed_after settings scheduling served backends sorted twinFound
    obtain ⟨-, id, named, own⟩ := filed.of_keepsDocument keeps
    obtain ⟨-, twinId, twinNamed, twinOwn⟩ := twinFiled.of_keepsDocument twinKeeps
    have same : partition = other := by
      rw [← own, ← twinOwn, Routing.partitionOf, named, Routing.partitionOf, twinNamed]
    subst same
    obtain rfl : store = twin := Option.some.inj (found.symm.trans twinFound)
    exact ⟨rfl, filed.address_unique keeps twinKeeps⟩

/-- Two documents, the deletion of one of them and a counter of the other, whose ids are spelled
differently. -/
def capitalBatch : Batch := .ofPayloads 7 [
  .change ⟨⟨"RV:3-A", 3, .epoch, 0⟩, .document "Users/1" "users" [1]⟩,
  .change ⟨⟨"RV:4-A", 4, .epoch, 0⟩, .document "users/4" "users" [2]⟩,
  .change ⟨⟨"RV:5-A", 5, .epoch, 0⟩, .documentTombstone "users/1" "users"⟩,
  .change ⟨⟨"RV:6-A", 6, .epoch, 0⟩, .counter "USERS/4" "likes" [3]⟩] []

def capitalEvents : List (Node.Event Nat) :=
  [.connect 0 "north", .arrive 0 capitalBatch.encode, .turn 0, .turn 0]

def capitalNode : Node Nat :=
  .after capitalEvents (.start .standard
    (.start ⟨8, 8, 1000, []⟩ 2 2 [.create .memory, .create .mapped]))

/-- How many live documents, deleted documents and counters each partition has. -/
def recordCounts (stores : List Partition) : List (List Nat) :=
  stores.map fun store =>
    [Table.documents, .tombstones, .counters].map fun table => (store.entriesOf table).length

set_option maxRecDepth 10000 in
theorem Node.documents_placed_capitalNode :
    recordCounts capitalNode.workers.stores = [[1, 0, 1], [0, 1, 0]] ∧
      ∀ (partition other : Nat) (store twin : Partition) (name : String)
        (address spot : Table × String), capitalNode.workers.stores[partition]? = some store →
        store.KeepsDocument name address → capitalNode.workers.stores[other]? = some twin →
        twin.KeepsDocument name spot → partition = other ∧ address = spot :=
  ⟨by decide +kernel,
    (@documents_placed Nat _ .standard ⟨8, 8, 1000, []⟩ ⟨2, by decide⟩ 2 [.memory, .mapped]
      capitalEvents (by simp [capitalEvents, Event.Sorted])).2⟩

end DocumentReplication
