import DocumentReplication.Proofs.Connection.Attachments
import DocumentReplication.Proofs.Connection.Exchange
import DocumentReplication.Proofs.Connection.Pieces

/-!
Batches that are sent again. A sender whose batch lacked attachments sends it once more with their
payloads, on the same connection. By then some partitions may have committed their slices, and others
not. What all of them hold in the end is what they would hold if the batch had come with the payloads
at once, over a connection that had seen nothing before.
-/

namespace DocumentReplication

variable {settings : ReplicationSettings} {connection : Connection} {workers : Workers}
  {body : BatchBody}

namespace Connection

variable {fresh : Connection} {lastEtag : Int64} {bareBytes fullBytes : Bytes}
  {frameLimit limit : Nat} {now : Elapsed} {kind : ReplyKind}

theorem Idle.settled_of_kinds {bytes : Bytes} (idle : connection.Idle settings)
    (sent : body.Sent frameLimit limit lastEtag bytes)
    (kinds : (connection.receive now bytes workers).replies.map (·.kind) = [kind])
    (spoken : kind ≠ .error) :
    body.Admitted settings lastEtag bytes ∧ ∃ items outcome,
      body.slices? connection.queue.routing = .ok items ∧
      (workers.distribute connection.source lastEtag connection.queue.routing.partitionCount
        items).1 = .ok outcome ∧
      Answers settings connection.source connection.queue.routing lastEtag items outcome workers
        (connection.receive now bytes workers) ∧
      (outcome.reply settings lastEtag).kind = kind := by
  obtain ⟨reply, replied, rfl⟩ := List.map_eq_singleton_iff.mp kinds
  have member : reply ∈ (connection.receive now bytes workers).replies :=
    replied ▸ List.mem_singleton_self reply
  obtain ⟨admitted, items, outcome, sliced, settled⟩ := idle.settled_of_answered sent member spoken
  have answers := idle.answers admitted sliced settled now
  have same := answers.replies
  rw [replied, List.singleton_inj] at same
  exact ⟨admitted, items, outcome, sliced, settled, answers, same ▸ rfl⟩

/-- After a reply that attachments are missing, sending the batch again with its payloads is as good
as sending it with them to another connection in the first place. -/
theorem Idle.resend (idle : connection.Idle settings) (freshIdle : fresh.Idle settings)
    (source : fresh.source = connection.source)
    (routing : fresh.queue.routing = connection.queue.routing)
    (kept : ∀ change ∈ body.changes, change.kind ≠ .attachmentTombstone)
    (admits : ∀ scheduler ∈ workers.schedulers, scheduler.store.Admits body.payloads)
    (bareSent : BatchBody.Sent frameLimit limit lastEtag { body with payloads := [] } bareBytes)
    (fullSent : body.Sent frameLimit limit lastEtag fullBytes) {nacked : Progress}
    (first : connection.receive now bareBytes workers = nacked)
    (missing : nacked.replies.map (·.kind) = [.missingAttachments])
    (accepted : (nacked.connection.receive now fullBytes nacked.workers).replies.map (·.kind) =
      [.ok]) (later : Elapsed) :
    (fresh.receive later fullBytes workers).replies =
        (nacked.connection.receive now fullBytes nacked.workers).replies ∧
      Workers.SameStores (nacked.connection.receive now fullBytes nacked.workers).workers
        (fresh.receive later fullBytes workers).workers := by
  subst first
  obtain ⟨-, bare, refused, bareSliced, -, nacks, -⟩ :=
    idle.settled_of_kinds bareSent missing nofun
  obtain ⟨admitted, full, outcome, sliced, settled, acks, applied⟩ :=
    nacks.idle.settled_of_kinds fullSent accepted nofun
  rw [nacks.source, nacks.routing] at settled acks
  rw [nacks.routing] at sliced
  obtain ⟨same, sameSliced, splits⟩ := BatchBody.splits_of_slices? sliced
  obtain rfl : bare = same := Except.ok.inj (bareSliced.symm.trans sameSliced)
  cases outcome with
  | attachmentsMissing reason => contradiction
  | applied total =>
      have hashed : ∀ payload ∈ body.payloads, contentHash payload.2 = payload.1 := by
        obtain ⟨head, -, -, -, -, follows⟩ := fullSent
        exact fun payload member => (follows.payloads payload member).hashed
      obtain ⟨⟨once, settledOnce⟩, stores⟩ := Workers.distribute_resend splits hashed kept admits
        nacks.workers.symm settled
      rw [← routing] at sliced
      rw [← routing, ← source] at settledOnce
      have answers := freshIdle.answers admitted sliced settledOnce later
      rw [answers.replies, answers.workers, acks.replies, acks.workers, routing, source]
      exact ⟨rfl, stores⟩

end Connection

namespace Node

variable {κ : Type} [DecidableEq κ] {key freshKey : κ} {node : Node κ} {lastEtag : Int64}
  {frameLimit limit : Nat} {store : Partition}

theorem receive_of_get? (found : node.connections.get? key = some connection) (bytes : Bytes) :
    node.receive key bytes = ((connection.receive node.now bytes node.workers).replies, { node with
      workers := (connection.receive node.now bytes node.workers).workers
      connections := node.connections.insert key
        (connection.receive node.now bytes node.workers).connection }) :=
  advance_of_get? found _

theorem receiveAll_of_sent {pieces : List Bytes}
    (sent : body.Sent frameLimit limit lastEtag pieces.flatten) (key : κ) (node : Node κ) :
    node.receiveAll key pieces = node.receive key pieces.flatten := by
  cases pieces with
  | nil =>
      obtain ⟨head, nothing, -⟩ := sent
      have longer := congrArg List.length nothing
      simp only [List.flatten_nil, List.length_nil, List.length_append, Frame.length_encode] at longer
      omega
  | cons piece rest => exact receiveAll_eq key piece rest node

/-- A node that was started with empty stores, whatever happened since. -/
inductive StartedEmpty : Node κ → Prop
  | after (settings : ReplicationSettings) (scheduling : SchedulerSettings)
      (partitionCount served : Nat) (backends : List Backend) (events : List (Event κ)) :
      StartedEmpty (after events (start settings (.start scheduling partitionCount served
        (backends.map Partition.create))))

theorem StartedEmpty.invariants (started : node.StartedEmpty) : node.Ready ∧ node.Sound ∧
    ∀ store ∈ node.workers.stores, store.begin.Stripped ∧ store.begin.ContentAddressed := by
  obtain ⟨settings, scheduling, partitionCount, served, backends, events⟩ := started
  obtain ⟨sound, follows⟩ := after_spec
    (sound_start settings (.start scheduling partitionCount served (backends.map Partition.create)))
    events
  refine ⟨(ready_start settings _).after events, sound, fun store member => ?_⟩
  obtain ⟨first, there, ignored, leads⟩ := follows.exists_store member
  rw [start, Workers.stores_start] at there
  obtain ⟨backend, -, rfl⟩ := List.mem_map.mp there
  exact ⟨Transaction.kept_stripped.runs (leads.runs.mono fun _ _ => trivial)
      (Partition.stripped_create backend),
    Transaction.kept_addressed.leads leads (Transaction.addressed_create backend)⟩

/-- A batch that was refused for missing attachments is repaired by sending it again with their
payloads. Whatever happened since the node was started with empty stores, if the second attempt is
accepted, it leaves every store as it would be if the batch had come with the payloads at once on a
new connection of the same sender, which would have got the same reply. -/
theorem resend_repairs (started : node.StartedEmpty)
    (found : node.connections.get? key = some connection) (waits : connection.state = .awaiting)
    (nothing : connection.reader.unread = [])
    (kept : ∀ change ∈ body.changes, change.kind ≠ .attachmentTombstone)
    (unique : ∀ store ∈ node.workers.stores, ∀ payload ∈ body.payloads,
      ∀ entry ∈ store.entriesOf .attachmentBlobs,
        contentHash entry.value = contentHash payload.2 → entry.value = payload.2)
    {bare full once : List Bytes}
    (bareSent : BatchBody.Sent frameLimit limit lastEtag { body with payloads := [] } bare.flatten)
    (fullSent : body.Sent frameLimit limit lastEtag full.flatten)
    (same : once.flatten = full.flatten)
    (nacked : (node.receiveAll key bare).1.map (·.kind) = [.missingAttachments])
    (accepted : ((node.receiveAll key bare).2.receiveAll key full).1.map (·.kind) = [.ok]) :
    ∃ fresh, node.connect freshKey connection.source = .ok fresh ∧
      (fresh.receiveAll freshKey once).1 = ((node.receiveAll key bare).2.receiveAll key full).1 ∧
      List.Forall₂ (fun last first => last.SameContents first ∧ last.readState = first.readState)
        ((node.receiveAll key bare).2.receiveAll key full).2.workers.stores
        (fresh.receiveAll freshKey once).2.workers.stores := by
  obtain ⟨ready, sound, stores⟩ := started.invariants
  have admits : ∀ scheduler ∈ node.workers.schedulers, scheduler.store.Admits body.payloads := by
    intro scheduler member
    have listed : scheduler.store ∈ node.workers.stores :=
      List.mem_append_left _ (List.mem_map_of_mem member)
    obtain ⟨stripped, addressed⟩ := stores _ listed
    exact ⟨stripped, addressed, unique _ listed⟩
  have idle : connection.Idle node.settings :=
    ⟨waits, (ready key connection found).of_awaiting waits, nothing⟩
  have among : Routing.among node.workers.partitionCount = .ok connection.queue.routing := by
    rw [← (sound key connection found).partitionCount]
    exact Routing.among_partitionCount _
  obtain ⟨fresh, opened⟩ : ∃ fresh, Connection.start node.settings connection.source node.workers
      node.now = .ok fresh := ⟨_, by simp only [Connection.start, among, Except.ok_bind]; rfl⟩
  obtain ⟨freshIdle, source, freshAmong⟩ := Connection.idle_start opened
  have routing : fresh.queue.routing = connection.queue.routing :=
    Except.ok.inj (freshAmong.symm.trans among)
  let renewed : Node κ :=
    { node with connections := node.connections.insert freshKey fresh }
  have there : renewed.connections.get? freshKey = some fresh := Dictionary.get?_insert_self ..
  rw [receiveAll_of_sent bareSent, receive_of_get? found] at nacked accepted ⊢
  rw [receiveAll_of_sent fullSent, receive_of_get? (Dictionary.get?_insert_self ..)] at accepted ⊢
  obtain ⟨replies, repaired⟩ := idle.resend freshIdle source routing kept admits bareSent fullSent rfl
    nacked accepted node.now
  refine ⟨renewed, Except.bind_eq_ok_iff.mpr ⟨fresh, opened, rfl⟩, ?_⟩
  rw [receiveAll_of_sent (same.symm ▸ fullSent), same, receive_of_get? there]
  exact ⟨replies, repaired.imp fun last first contents => ⟨contents, contents.readState⟩⟩

/-- A document of one partition, and a photo of a document of the other one. -/
def photoBody : BatchBody where
  changes := [⟨⟨"RV:3-A", 11, .epoch, 0⟩, .document "users/4" "users" [1]⟩,
    ⟨⟨"RV:4-A", 12, .epoch, 0⟩, .attachment "users/1" "photo" "image/png" (contentHash [7])⟩]
  payloads := [(contentHash [7], [7])]

def bareBody : BatchBody := { photoBody with payloads := [] }

def octets (body : BatchBody) : Bytes :=
  (Message.documents (body.header 12)).frame.encode ++ body.encode

/-- Two partitions with nothing in them, and a connection that has seen nothing yet. -/
def photoNode : Node Nat :=
  after [.connect 0 "north"]
    (start .standard (.start ⟨8, 8, 1000, []⟩ 2 2 [.create .memory, .create .mapped]))

/-- What happens when octets arrive that call for two turns. -/
def twoTurns (bytes : Bytes) : List (Event Nat) := [.arrive 0 bytes, .turn 0, .turn 0]

set_option maxRecDepth 1000 in
theorem resend_repairs_photoBody :
    (photoNode.receiveAll 0 [octets bareBody]).2.workers.stores.map (·.commits) = [1, 0] ∧
    ∃ fresh, photoNode.connect 1 "north" = .ok fresh ∧
      (fresh.receiveAll 1 [octets photoBody]).1 =
        ((photoNode.receiveAll 0 [octets bareBody]).2.receiveAll 0 [octets photoBody]).1 ∧
      List.Forall₂ (fun last first => last.SameContents first ∧ last.readState = first.readState)
        ((photoNode.receiveAll 0 [octets bareBody]).2.receiveAll 0 [octets photoBody]).2.workers.stores
        (fresh.receiveAll 1 [octets photoBody]).2.workers.stores := by
  obtain ⟨nackRests, nacked, half, ackRests, accepted⟩ :
      (photoNode.after (twoTurns (octets bareBody))).rests 0 = true ∧
      (run (twoTurns (octets bareBody)) photoNode).1.map (·.kind) = [.missingAttachments] ∧
      (photoNode.after (twoTurns (octets bareBody))).workers.stores.map (·.commits) = [1, 0] ∧
      ((photoNode.after (twoTurns (octets bareBody))).after (twoTurns (octets photoBody))).rests 0 =
        true ∧
      (run (twoTurns (octets photoBody)) (photoNode.after (twoTurns (octets bareBody)))).1.map
        (·.kind) = [.ok] := by decide +kernel
  have nack : photoNode.receiveAll 0 [octets bareBody] = run (twoTurns (octets bareBody)) photoNode := by
    rw [receiveAll_eq, List.flatten_singleton]
    exact (run_of_rests 2 nackRests).symm
  have ack : (photoNode.after (twoTurns (octets bareBody))).receiveAll 0 [octets photoBody] =
      run (twoTurns (octets photoBody)) (photoNode.after (twoTurns (octets bareBody))) := by
    rw [receiveAll_eq, List.flatten_singleton]
    exact (run_of_rests 2 ackRests).symm
  have fullSent : photoBody.Sent ReplicationSettings.standard.maxFrame
      ReplicationSettings.standard.maxAttachment 12 [octets photoBody].flatten :=
    ⟨_, List.flatten_singleton, by decide +kernel⟩
  have bareSent : bareBody.Sent ReplicationSettings.standard.maxFrame
      ReplicationSettings.standard.maxAttachment 12 [octets bareBody].flatten :=
    ⟨_, List.flatten_singleton, by decide +kernel⟩
  obtain ⟨connection, found, waits, unread, source⟩ : ∃ connection,
      photoNode.connections.get? 0 = some connection ∧ connection.state = .awaiting ∧
        connection.reader.unread = [] ∧ connection.source = "north" := ⟨_, rfl, rfl, rfl, rfl⟩
  have started : photoNode.StartedEmpty := .after _ _ 2 2 [.memory, .mapped] _
  rw [← source]
  refine ⟨nack ▸ half, resend_repairs started found waits unread (by decide +kernel)
    (by decide +kernel) bareSent fullSent rfl (nack ▸ nacked) ?_⟩
  rw [nack]
  exact (congrArg (fun result => result.1.map (·.kind)) ack).trans accepted

end Node

end DocumentReplication
