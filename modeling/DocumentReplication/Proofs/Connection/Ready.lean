import DocumentReplication.Proofs.Connection.Events
import DocumentReplication.Proofs.Wire.Batch

/-!
Connections that are ready for what comes. Between batches the queue of a connection is as it was when
the connection started, and a batch is only read once its header was within the limits; so nothing of
one batch is left for the next one.
-/

namespace DocumentReplication

variable {settings : ReplicationSettings} {connection : Connection} {workers : Workers}
  {now : Elapsed} {header : BatchHeader} {batch : IncomingBatch} {barrier : Barrier}

namespace BatchQueue

variable {queue next : BatchQueue} {items : List Item} {payloads : List (String × Bytes)}
  {slices : List PartitionSlice}

/-- A queue with a place for every partition of its routing, whatever is in it. -/
structure Shaped (routing : Routing) (queue : BatchQueue) : Prop where
  routes : queue.routing = routing
  pending : queue.pending.length = routing.partitionCount
  references : queue.references.byPartition.length = routing.partitionCount

variable {routing : Routing}

theorem shaped_create (routing : Routing) (state : QueueState) :
    Shaped routing { create routing with state := state } :=
  ⟨rfl, List.length_replicate, List.length_replicate⟩

theorem Shaped.abort (shaped : queue.Shaped routing) : queue.abort = create routing := by
  obtain ⟨rfl, pending, references⟩ := shaped
  simp only [BatchQueue.abort, create, References.clear, references, ← pending, List.map_const']

theorem Shaped.push {item : Item} {partition : Nat} (shaped : queue.Shaped routing)
    (done : queue.push item = .ok (partition, next)) : next.Shaped routing := by
  obtain ⟨-, -, rfl⟩ := push_eq_ok_iff.mp done
  refine ⟨shaped.routes, (length_append ..).trans shaped.pending, ?_⟩
  simp only [References.observe]
  split
  · exact shaped.references
  · split
    · exact shaped.references
    · exact (List.length_modify ..).trans shaped.references

theorem Shaped.pushPayload {hash : String} {content : Bytes} {copies : Nat}
    (shaped : queue.Shaped routing) (done : queue.pushPayload hash content = .ok (copies, next)) :
    next.Shaped routing := by
  obtain ⟨-, -, rfl⟩ := pushPayload_eq_ok_iff.mp done
  refine ⟨shaped.routes, ?_, shaped.references⟩
  have kept (copies : List (Nat × Item)) (pending : List (List Item)) :
      (copies.foldl (fun pending copy => append copy.1 copy.2 pending) pending).length =
        pending.length := by
    induction copies generalizing pending with
    | nil => rfl
    | cons copy rest ih => exact (ih _).trans (length_append ..)
  exact (kept ..).trans shaped.pending

theorem Shaped.fill (shaped : queue.Shaped routing) (done : queue.fill items payloads = .ok next) :
    next.Shaped routing := by
  obtain ⟨middle, pushed, copied⟩ := Except.bind_eq_ok_iff.mp done
  have filled : middle.Shaped routing := by
    refine Except.foldlM_invariant (Shaped routing) pushed
      (fun item _ queue next one held => ?_) shaped
    obtain ⟨_, done, rfl⟩ := Except.map_eq_ok_iff.mp one
    exact held.push done
  refine Except.foldlM_invariant (Shaped routing) copied
    (fun payload _ queue next one held => ?_) filled
  obtain ⟨_, done, rfl⟩ := Except.map_eq_ok_iff.mp one
  exact held.pushPayload done

/-- A batch that was handed out and applied leaves the queue as it was before any batch. -/
theorem Shaped.finish (shaped : queue.Shaped routing) {emptied last : BatchQueue}
    (handed : queue.handOut = .ok (slices, emptied)) (finishes : emptied.finish = .ok last) :
    last = create routing := by
  obtain ⟨-, -, rfl⟩ := handOut_eq_ok_iff.mp handed
  obtain ⟨-, rfl⟩ := finish_eq_ok_iff.mp finishes
  refine Shaped.abort ⟨shaped.routes, ?_, shaped.references⟩
  exact (List.length_map ..).trans shaped.pending

end BatchQueue

namespace Connection

/-- An open connection with the limits of its settings and a queue with nothing in it. -/
structure Prepared (settings : ReplicationSettings) (state : QueueState) (connection : Connection) :
    Prop where
  configured : connection.settings = settings
  maxFrame : connection.reader.maxFrame = settings.maxFrame
  maxAttachment : connection.reader.maxAttachment = settings.maxAttachment
  queue : connection.queue = { BatchQueue.create connection.queue.routing with state := state }

def Ready (settings : ReplicationSettings) (connection : Connection) : Prop :=
  match connection.state with
  | .awaiting => connection.Prepared settings .empty
  | .receiving header => connection.Prepared settings .filling ∧
      header.check settings.maxItems settings.maxStreams = .ok ()
  | .closed _ => True

theorem Ready.of_awaiting (ready : connection.Ready settings) (waits : connection.state = .awaiting) :
    connection.Prepared settings .empty := by
  unfold Ready at ready
  rwa [waits] at ready

theorem Ready.of_receiving (ready : connection.Ready settings)
    (waits : connection.state = .receiving header) : connection.Prepared settings .filling ∧
      header.check settings.maxItems settings.maxStreams = .ok () := by
  unfold Ready at ready
  rwa [waits] at ready

theorem ready_start {source : String}
    (started : start settings source workers now = .ok connection) : connection.Ready settings := by
  obtain ⟨routing, -, same⟩ := Except.bind_eq_ok_iff.mp started
  cases same
  exact ⟨rfl, rfl, rfl, rfl⟩

/-- What becomes of a documents header is up to its counts alone. -/
theorem Prepared.expect_eq (prepared : connection.Prepared settings .empty) (header : BatchHeader) :
    connection.expect header =
      match header.check settings.maxItems settings.maxStreams with
      | .ok _ => ({ connection with
          queue := { connection.queue with state := .filling }, state := .receiving header }, none)
      | .error cause => connection.fail "Documents" (.wire cause) := by
  have begins : connection.queue.begin = .ok { connection.queue with state := .filling } := by
    rw [prepared.queue]
    rfl
  simp only [Connection.expect, begins, prepared.configured]
  cases header.check settings.maxItems settings.maxStreams <;> rfl

theorem Prepared.expect (prepared : connection.Prepared settings .empty) (header : BatchHeader) :
    (connection.expect header).1.Ready settings := by
  rw [prepared.expect_eq]
  split
  · rename_i checked
    refine ⟨⟨prepared.configured, prepared.maxFrame, prepared.maxAttachment, ?_⟩, checked⟩
    exact congrArg (fun queue : BatchQueue => { queue with state := .filling }) prepared.queue
  · trivial

theorem Prepared.handle (prepared : connection.Prepared settings .empty) (now : Elapsed)
    (message : Message) : (connection.handle now message).1.Ready settings := by
  cases message with
  | poll => exact ⟨prepared.configured, prepared.maxFrame, prepared.maxAttachment, prepared.queue⟩
  | heartbeat lastEtag =>
      exact ⟨prepared.configured, prepared.maxFrame, prepared.maxAttachment, prepared.queue⟩
  | documents header =>
      have counted (stats : ConnectionStats) :
          Prepared settings .empty { connection with stats := stats } :=
        ⟨prepared.configured, prepared.maxFrame, prepared.maxAttachment, prepared.queue⟩
      exact (counted _).expect header

theorem Prepared.dispatch {queue : BatchQueue} {next : Workers}
    (prepared : connection.Prepared settings .filling)
    (done : connection.dispatch header batch workers = .ok (barrier, queue, next)) :
    queue = BatchQueue.create connection.queue.routing := by
  simp only [Connection.dispatch, Except.bind_eq_ok_iff] at done
  obtain ⟨payloads, -, filled, fills, ⟨slices, emptied⟩, handed, _, finishes, same⟩ := done
  cases same
  have shaped : filled.Shaped connection.queue.routing := by
    refine BatchQueue.Shaped.fill ?_ fills
    rw [prepared.queue]
    exact BatchQueue.shaped_create ..
  exact shaped.finish handed finishes

theorem Prepared.apply (prepared : connection.Prepared settings .filling) (now : Elapsed)
    (header : BatchHeader) (batch : IncomingBatch) (workers : Workers) :
    (connection.apply now header batch workers).connection.Ready settings := by
  unfold Connection.apply
  simp only
  split
  · trivial
  · rename_i barrier queue next done
    obtain rfl : queue = BatchQueue.create connection.queue.routing := prepared.dispatch done
    cases BatchOutcome.ofOutcomes barrier.outcomes with
    | error fault => trivial
    | ok outcome =>
        cases outcome <;>
          exact ⟨prepared.configured, prepared.maxFrame, prepared.maxAttachment, rfl⟩

theorem Ready.turn {turn : Turn} (ready : connection.Ready settings)
    (taken : connection.turn? now workers = some turn) : turn.connection.Ready settings := by
  simp only [turn?] at taken
  split at taken
  · contradiction
  · rename_i waits
    have before := ready.of_awaiting waits
    split at taken
    · contradiction
    · cases taken
      trivial
    · rename_i message reader read
      cases taken
      obtain ⟨_, rest, -, -, -, -, rfl⟩ := WireReader.readMessage_eq_done_iff.mp read
      have prepared : Prepared settings .empty
          { connection with reader := { connection.reader with unread := rest } } :=
        ⟨before.configured, before.maxFrame, before.maxAttachment, before.queue⟩
      exact prepared.handle now message
  · rename_i header waits
    have before := (ready.of_receiving waits).1
    split at taken
    · contradiction
    · cases taken
      trivial
    · rename_i batch reader read
      cases taken
      obtain ⟨body, rest, -, -, -, rfl⟩ := WireReader.readBatch_eq_done_iff.mp read
      have prepared : Prepared settings .filling { connection with reader :=
          { connection.reader with
            spool := ⟨body.payloads.flatMap (·.2)⟩, unread := rest } } :=
        ⟨before.configured, before.maxFrame, before.maxAttachment, before.queue⟩
      exact prepared.apply now header batch workers

theorem Ready.step (ready : connection.Ready settings) (now : Elapsed) (workers : Workers) :
    (connection.step now workers).connection.Ready settings := by
  unfold Connection.step
  cases taken : connection.turn? now workers with
  | none => exact ready
  | some turn => exact ready.turn taken

theorem Ready.starve (ready : connection.Ready settings) (workers : Workers) :
    (connection.starve workers).connection.Ready settings := by
  unfold Connection.starve
  split
  · exact ready
  · trivial

theorem Ready.cancel (ready : connection.Ready settings) : connection.cancel.Ready settings := by
  unfold Connection.cancel
  split
  · trivial
  · exact ready

theorem Ready.elapse (ready : connection.Ready settings) (now : Elapsed) :
    (connection.elapse now).Ready settings := by
  unfold Connection.elapse
  split
  · split
    · trivial
    · exact ready
  · exact ready

theorem Ready.receive (ready : connection.Ready settings) (bytes : Bytes) :
    Ready settings { connection with reader := connection.reader.receive bytes } := by
  cases waits : connection.state with
  | closed outcome =>
      unfold Ready
      simp only
  | awaiting =>
      obtain ⟨configured, maxFrame, maxAttachment, queue⟩ := ready.of_awaiting waits
      unfold Ready
      simp only
      exact ⟨configured, maxFrame, maxAttachment, queue⟩
  | receiving header =>
      obtain ⟨⟨configured, maxFrame, maxAttachment, queue⟩, checked⟩ := ready.of_receiving waits
      unfold Ready
      simp only
      exact ⟨⟨configured, maxFrame, maxAttachment, queue⟩, checked⟩

end Connection

namespace Node

variable {κ : Type} [DecidableEq κ] {key : κ} {node : Node κ}

def Ready (node : Node κ) : Prop :=
  ∀ key connection, node.connections.get? key = some connection → connection.Ready node.settings

theorem ready_start (settings : ReplicationSettings) (workers : Workers) :
    (start settings workers : Node κ).Ready := by
  intro key connection found
  cases found

theorem Ready.insert (ready : node.Ready) (inserted : connection.Ready node.settings)
    (workers : Workers) (key : κ) :
    Ready { node with workers := workers, connections := node.connections.insert key connection } := by
  intro other held found
  simp only [Dictionary.get?_insert] at found
  split at found
  · cases found
    exact inserted
  · exact ready other held found

theorem Ready.mapValues {change : Connection → Connection} (ready : node.Ready)
    (keeps : ∀ {connection : Connection}, connection.Ready node.settings →
      (change connection).Ready node.settings) (now : Elapsed) :
    Ready { node with now := now, connections := node.connections.mapValues change } := by
  intro key connection found
  simp only [Dictionary.get?_mapValues, Option.map_eq_some_iff] at found
  obtain ⟨held, there, rfl⟩ := found
  exact keeps (ready key held there)

theorem Ready.advance {work : Connection → Workers → Connection.Progress} (ready : node.Ready)
    (keeps : ∀ {connection : Connection}, connection.Ready node.settings →
      (work connection node.workers).connection.Ready node.settings) (key : κ) :
    (node.advance key work).2.Ready := by
  unfold Node.advance
  cases found : node.connections.get? key with
  | none => exact ready
  | some connection => exact ready.insert (keeps (ready key connection found)) _ key

theorem Ready.occur (ready : node.Ready) (event : Event κ) : (node.occur event).2.Ready := by
  cases event with
  | connect key source =>
      simp only [Node.occur]
      cases opened : node.connect key source with
      | error fault => exact ready
      | ok next =>
          obtain ⟨connection, started, same⟩ := Except.bind_eq_ok_iff.mp opened
          cases same
          exact ready.insert (Connection.ready_start started) _ key
  | arrive key bytes => exact ready.advance (fun held => held.receive bytes) key
  | turn key => exact ready.advance (fun held => held.step _ _) key
  | hangUp key => exact ready.advance (fun held => held.starve _) key
  | cancel key =>
      simp only [Node.occur, Node.cancel]
      split
      · exact ready
      · rename_i connection found
        exact ready.insert (ready key connection found).cancel _ key
  | forget key =>
      intro other connection found
      simp only [Node.occur, forget, Dictionary.get?_erase] at found
      split at found
      · contradiction
      · exact ready other connection found
  | elapse moment => exact ready.mapValues (fun held => held.elapse moment) moment
  | stop => exact ready.mapValues (fun held => held.cancel) node.now
  | cycle partition slices verified =>
      intro key connection found
      exact ready key connection found

theorem Ready.after (ready : node.Ready) (events : List (Event κ)) : (node.after events).Ready := by
  induction events generalizing node with
  | nil => exact ready
  | cons event rest ih => exact ih (ready.occur event)

/-- Events leave the settings of a node alone. -/
theorem settings_after (events : List (Event κ)) (node : Node κ) :
    (node.after events).settings = node.settings := by
  have advanced (key : κ) (work : Connection → Workers → Connection.Progress) (node : Node κ) :
      (node.advance key work).2.settings = node.settings := by
    unfold Node.advance
    split <;> rfl
  induction events generalizing node with
  | nil => rfl
  | cons event rest ih =>
      refine (ih _).trans ?_
      cases event with
      | connect key source =>
          simp only
          cases opened : node.connect key source with
          | error fault => rfl
          | ok next =>
              obtain ⟨connection, -, same⟩ := Except.bind_eq_ok_iff.mp opened
              cases same
              rfl
      | arrive key bytes => exact advanced ..
      | turn key => exact advanced ..
      | hangUp key => exact advanced ..
      | cancel key =>
          simp only [Node.cancel]
          split <;> rfl
      | _ => rfl

end Node

end DocumentReplication
