import DocumentReplication.Proofs.Commit.Retention
import DocumentReplication.Proofs.Connection.Events
import DocumentReplication.Wire.Batch

/-!
No acknowledged change is lost. A batch is accepted only after its changes were committed, each in the
partition of its document, and what was committed is retained whatever the connections do later.
-/

namespace DocumentReplication

variable {scheduling : SchedulerSettings} {ignored : List String} {routing : Routing}
  {source : String} {header : BatchHeader} {batch : IncomingBatch} {change : Change}
  {workers next : Workers}

/-- The kinds of changes that leave a record under the id of a document. -/
def ItemKind.recorded : List ItemKind :=
  [.document, .documentTombstone, .counter, .timeSeries, .timeSeriesDeletedRange]

theorem Change.lasting_of_recorded (member : change.kind ∈ ItemKind.recorded) :
    change.Lasting ∧ change.kind ≠ .revisionTombstone := by
  unfold kind ChangeBody.kind at *
  unfold Lasting home table
  cases shape : change.body <;> simp_all [ItemKind.recorded]

theorem Routing.route_of_recorded (routing : Routing) (member : change.kind ∈ ItemKind.recorded) :
    ∃ id, change.documentId? = some id ∧
      routing.route (.change change) = .ok (routing.partitionOf id) := by
  unfold Change.kind ChangeBody.kind at member
  unfold Change.documentId? ChangeBody.documentId?
  simp only [route]
  cases shape : change.body <;> simp_all [ItemKind.recorded]

namespace Workers

/-- What an accepted batch leaves in the stores: a record of every change that leaves one, in the
partition of its document, and in every partition that a change went to the etag of the batch. -/
structure Retains (ignored : List String) (routing : Routing) (source : String)
    (header : BatchHeader) (batch : IncomingBatch) (workers : Workers) : Prop where
  records : ∀ change ∈ batch.changes, change.kind ∈ ItemKind.recorded →
    ∃ id store, change.documentId? = some id ∧
      workers.stores[routing.partitionOf id]? = some store ∧ store.Holds ignored change
  etags : ∀ change ∈ batch.changes, ∃ partition store state etag,
    routing.route (.change change) = .ok partition ∧ workers.stores[partition]? = some store ∧
      store.readState = .ok (some state) ∧ state.lastEtagFrom.get? source = some etag ∧
      header.lastEtag ≤ etag

/-- All partitions are written with the same settings. -/
def Uniform (scheduling : SchedulerSettings) (workers : Workers) : Prop :=
  ∀ scheduler ∈ workers.schedulers, scheduler.settings = scheduling

theorem uniform_start (scheduling : SchedulerSettings) (partitionCount served : Nat)
    (stores : List Partition) : (start scheduling partitionCount served stores).Uniform scheduling := by
  intro scheduler member
  obtain ⟨store, -, rfl⟩ := List.mem_map.mp member
  rfl

theorem Uniform.follows (uniform : workers.Uniform scheduling) (follows : workers.Follows next) :
    next.Uniform scheduling := by
  intro later member
  obtain ⟨index, inside, rfl⟩ := List.mem_iff_getElem.mp member
  obtain ⟨scheduler, found, leads⟩ := follows.exists_before (List.getElem?_eq_getElem inside)
  exact leads.settings.trans (uniform scheduler (List.mem_of_getElem? found))

theorem Commits.retains {partition : Nat} {slice : Slice} (uniform : workers.Uniform scheduling)
    (commits : workers.Commits partition slice next) (member : .change change ∈ slice.items) :
    ∃ store, next.stores[partition]? = some store ∧
      (change.kind ∈ ItemKind.recorded → store.Holds scheduling.ignoredIds change) ∧
      store.begin.Reached slice.source slice.lastEtag := by
  obtain ⟨scheduler, later, found, left, -, before, outcome, after, -, done, leads⟩ := commits
  have same : scheduler.settings.ignoredIds = scheduling.ignoredIds := by
    rw [uniform scheduler (List.mem_of_getElem? found)]
  rw [same] at done leads
  refine ⟨later.store, getElem?_stores left, fun recorded => ?_, ?_⟩
  · obtain ⟨lasting, compared⟩ := Change.lasting_of_recorded recorded
    have known := Change.Known.of_transact member lasting done
    exact ((Transaction.kept_known lasting).leads leads known).holds compared
  · exact (Transaction.kept_reached _ _ _).leads leads (.of_transact done)

end Workers

theorem Connection.Delivers.retains {connection : Connection}
    (delivers : connection.Delivers header batch workers next)
    (uniform : workers.Uniform scheduling) {last : Workers} (follows : next.Follows last) :
    last.Retains scheduling.ignoredIds connection.queue.routing connection.source header batch := by
  have each (change : Change) (member : change ∈ batch.changes) : ∃ partition store,
      connection.queue.routing.route (.change change) = .ok partition ∧
        last.stores[partition]? = some store ∧
        (change.kind ∈ ItemKind.recorded → store.Holds scheduling.ignoredIds change) ∧
        store.begin.Reached connection.source header.lastEtag := by
    obtain ⟨partition, items, routed, inSlice, commits⟩ := delivers change member
    obtain ⟨store, found, holds, reached⟩ :=
      (commits.of_follows (.refl workers) follows).retains uniform inSlice
    exact ⟨partition, store, routed, found, holds, reached⟩
  refine ⟨fun change member recorded => ?_, fun change member => ?_⟩
  · obtain ⟨partition, store, routed, found, holds, -⟩ := each change member
    obtain ⟨id, owner, there⟩ := connection.queue.routing.route_of_recorded recorded
    obtain rfl : connection.queue.routing.partitionOf id = partition :=
      Except.ok.inj (there.symm.trans routed)
    exact ⟨id, store, owner, found, holds recorded⟩
  · obtain ⟨partition, store, routed, found, -, state, etag, read, reached, behind⟩ :=
      each change member
    exact ⟨partition, store, state, etag, routed, found, read, reached, behind⟩

namespace Node

variable {κ : Type} [DecidableEq κ] {node : Node κ} {event : Event κ} {reply : Reply}

theorem exists_of_advance {key : κ} {work : Connection → Workers → Connection.Progress}
    (replied : reply ∈ (node.advance key work).1) :
    ∃ connection, node.connections.get? key = some connection ∧
      reply ∈ (work connection node.workers).replies ∧
      (node.advance key work).2.workers = (work connection node.workers).workers := by
  unfold advance at replied ⊢
  cases found : node.connections.get? key with
  | none =>
      rw [found] at replied
      contradiction
  | some connection =>
      rw [found] at replied
      exact ⟨connection, rfl, replied, rfl⟩

/-- A batch is only accepted by the turn that read it. -/
theorem turn_of_accepted (sound : node.Sound) (replied : reply ∈ (node.occur event).1)
    (accepted : reply.kind = .ok) (documents : reply.messageType = "Documents") :
    ∃ key connection header batch reader, event = .turn key ∧
      node.connections.get? key = some connection ∧ connection.state = .receiving header ∧
      connection.reader.readBatch header = .done batch reader ∧
      connection.Delivers header batch node.workers (node.occur event).2.workers := by
  cases event with
  | turn key =>
      obtain ⟨connection, found, answered, workers⟩ := exists_of_advance replied
      simp only [occur, workers]
      unfold Connection.step at answered ⊢
      cases taken : connection.turn? node.now node.workers with
      | none =>
          rw [taken] at answered
          contradiction
      | some turn =>
          rw [taken] at answered
          obtain ⟨header, batch, reader, state, read, delivers⟩ := Connection.turn_delivers taken
            (sound key connection found) (Option.mem_toList.mp answered) accepted documents
          exact ⟨key, connection, header, batch, reader, rfl, found, state, read, delivers⟩
  | hangUp key =>
      obtain ⟨connection, -, answered, -⟩ := exists_of_advance replied
      unfold Connection.starve at answered
      split at answered
      · contradiction
      · have failed := Connection.reply_fail (Option.mem_toList.mp answered)
        rw [failed] at accepted
        contradiction
  | connect key source =>
      simp only [occur] at replied
      split at replied <;> contradiction
  | arrive key bytes =>
      obtain ⟨connection, -, answered, -⟩ := exists_of_advance replied
      contradiction
  | cancel | forget | elapse | stop | cycle => contradiction

/-- No acknowledged change is lost. Whatever the stores held when the node was started and whatever
happened since, when a batch is accepted every change in it is held by the partition of its document,
the partitions that got a change have reached the etag of the batch, and both stay true whatever
happens later. -/
theorem accepted_retained (settings : ReplicationSettings) (scheduling : SchedulerSettings)
    (partitionCount served : Nat) (stores : List Partition) (before : List (Event κ))
    (replied : reply ∈ (occur event
      (after before (start settings (.start scheduling partitionCount served stores)))).1)
    (accepted : reply.kind = .ok) (documents : reply.messageType = "Documents") :
    let node := after before (start settings (.start scheduling partitionCount served stores))
    ∃ key connection header batch reader,
      event = .turn key ∧ node.connections.get? key = some connection ∧
      connection.state = .receiving header ∧
      connection.reader.readBatch header = .done batch reader ∧
      ∃ positive, ∀ later : List (Event κ),
        (node.after (event :: later)).workers.Retains scheduling.ignoredIds ⟨partitionCount, positive⟩
          connection.source header batch := by
  intro node
  obtain ⟨sound, follows⟩ := after_spec
    (sound_start settings (.start scheduling partitionCount served stores)) before
  have uniform : node.workers.Uniform scheduling :=
    (Workers.uniform_start scheduling partitionCount served stores).follows follows
  obtain ⟨key, connection, header, batch, reader, turned, found, state, read, delivers⟩ :=
    turn_of_accepted sound replied accepted documents
  have count : connection.queue.routing.partitionCount = partitionCount :=
    (sound key connection found).partitionCount.trans follows.partitionCount
  subst count
  refine ⟨key, connection, header, batch, reader, turned, found, state, read,
    connection.queue.routing.positive, fun later => ?_⟩
  exact delivers.retains uniform (after_spec (occur_spec sound event).1 later).2

/-- A document, the deletion of another one, a counter and an attachment with its content; one of the
vectors has an entry of an ignored instance, and one a transactional entry. -/
def mixedBatch : Batch := .ofPayloads 40 [
  .change ⟨⟨"RV:3-A, RV:9-X", 37, .epoch, 0⟩, .document "Users/1" "users" [1]⟩,
  .change ⟨⟨"RV:4-A", 38, .epoch, 0⟩, .documentTombstone "users/2" "users"⟩,
  .change ⟨⟨"RV:5-B, TRXN:2-T", 39, .epoch, 0⟩, .counter "users/1" "likes" [2]⟩,
  .change ⟨⟨"RV:6-A", 40, .epoch, 0⟩,
    .attachment "users/1" "photo" "image/png" (contentHash [7])⟩] [[7]]

/-- Two partitions, and the events up to the turn that reads the batch. -/
def mixedRun : Node Nat :=
  after [.connect 0 "north", .arrive 0 mixedBatch.encode, .turn 0]
    (start .standard (.start ⟨8, 8, 1000, ["X"]⟩ 2 2 [.create .memory, .create .mapped]))

set_option maxRecDepth 1000 in
theorem accepted_retained_mixedRun :
    Reply.accepted "Documents" 40 "A" ∈ (occur (.turn 0) mixedRun).1 ∧
    ∃ key connection header batch reader,
      Event.turn 0 = .turn key ∧ mixedRun.connections.get? key = some connection ∧
      connection.state = .receiving header ∧
      connection.reader.readBatch header = .done batch reader ∧
      ∃ positive, ∀ later : List (Event Nat),
        (mixedRun.after (.turn 0 :: later)).workers.Retains ["X"] ⟨2, positive⟩
          connection.source header batch := by
  have replied : Reply.accepted "Documents" 40 "A" ∈ (occur (.turn 0) mixedRun).1 := by
    decide +kernel
  exact ⟨replied, accepted_retained _ _ _ _ _ _ replied rfl rfl⟩

end Node

end DocumentReplication
