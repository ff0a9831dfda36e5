import DocumentReplication.Proofs.Connection.Conversation
import DocumentReplication.Proofs.Connection.Resend

/-!
Connections without a memory. Between two messages a connection still has the payloads of its last
batch, the etag that it accepted last, its counters, and the moment since when it waits. Of all this
only the etag is ever told, and only to a poll. So a batch is answered as a new connection would answer
it, and leaves the same stores.
-/

namespace DocumentReplication

variable {settings : ReplicationSettings} {connection fresh : Connection} {workers : Workers}
  {now : Elapsed} {header : BatchHeader}

/-- What a connection keeps of the messages that it has been through. -/
structure Past where
  spool : Spool
  waitingSince : Elapsed
  lastEtag : Int64
  stats : ConnectionStats

/-- Replies that differ at most in the etag that a poll is told. -/
def Reply.Agrees (reply other : Reply) : Prop :=
  reply = other ∨ reply.messageType = Message.poll.type ∧
    other = { reply with lastEtagAccepted := other.lastEtagAccepted }

theorem Reply.agrees_self (replies : List Reply) : List.Forall₂ Agrees replies replies :=
  List.forall₂_same.mpr fun _ _ => .inl rfl

theorem Reply.eq_of_agrees {replies others : List Reply} (agree : List.Forall₂ Agrees replies others)
    (unpolled : ∀ reply ∈ replies, reply.messageType ≠ Message.poll.type) : replies = others := by
  induction agree with
  | nil => rfl
  | cons first _ ih =>
      rcases first with rfl | ⟨poll, -⟩
      · rw [ih fun reply member => unpolled reply (List.mem_cons_of_mem _ member)]
      · exact absurd poll (unpolled _ List.mem_cons_self)

namespace Connection

def toPast (connection : Connection) : Past :=
  ⟨connection.reader.spool, connection.waitingSince, connection.lastEtag, connection.stats⟩

def withPast (past : Past) (connection : Connection) : Connection :=
  { connection with
    reader := { connection.reader with spool := past.spool }
    waitingSince := past.waitingSince
    lastEtag := past.lastEtag
    stats := past.stats }

/-- Connections that came to the same with the same replies, each from a past of its own. -/
structure Progress.Alike (progress other : Progress) : Prop where
  connection : other.connection = progress.connection.withPast other.connection.toPast
  workers : other.workers = progress.workers
  replies : List.Forall₂ Reply.Agrees progress.replies other.replies

theorem alike_withPast (past : Past) (connection : Connection) (workers : Workers)
    (replies : List Reply) :
    Progress.Alike ⟨connection, workers, replies⟩ ⟨connection.withPast past, workers, replies⟩ :=
  ⟨rfl, rfl, Reply.agrees_self replies⟩

theorem fail_withPast (past : Past) (messageType : String) (fault : Fault) (connection : Connection)
    (workers : Workers) :
    (failing messageType fault workers connection).Alike
      (failing messageType fault workers (connection.withPast past)) :=
  ⟨rfl, rfl, Reply.agrees_self _⟩

theorem readMessage_withPast (past : Past) (connection : Connection) :
    (connection.withPast past).reader.readMessage =
      connection.reader.readMessage.lift ({ · with spool := past.spool }) := by
  simp only [withPast, WireReader.readMessage, WireReader.readFrame]
  cases Frame.readKind .message connection.reader.maxFrame connection.reader.unread with
  | done payload rest =>
      simp only [Intake.lift, Intake.check, Intake.andThen]
      cases onWire (Message.ofPayload payload) <;> rfl
  | refused fault rest => rfl
  | starved fault rest => rfl

theorem handle_withPast (past : Past) (now : Elapsed) (message : Message) (connection : Connection)
    (workers : Workers) :
    (Turn.progress ⟨(connection.handle now message).1, workers,
      (connection.handle now message).2⟩).Alike
    (Turn.progress ⟨((connection.withPast past).handle now message).1, workers,
      ((connection.withPast past).handle now message).2⟩) := by
  cases message with
  | poll => exact ⟨rfl, rfl, .cons (.inr ⟨rfl, rfl⟩) .nil⟩
  | heartbeat lastEtag => exact ⟨rfl, rfl, Reply.agrees_self _⟩
  | documents header =>
      simp only [handle, expect, withPast]
      split
      · exact ⟨rfl, rfl, .nil⟩
      · exact ⟨rfl, rfl, Reply.agrees_self _⟩

theorem dispatch_counted (stats : ConnectionStats) (batch : IncomingBatch) (connection : Connection)
    (workers : Workers) :
    dispatch header batch { connection with stats := stats } workers =
      dispatch header batch connection workers := rfl

/-- What is in the spool is all of the past that a batch depends on once it has been read. -/
theorem apply_withPast (past : Past) (now : Elapsed) (header : BatchHeader) (batch : IncomingBatch)
    (connection : Connection) (workers : Workers) (spooled : past.spool = connection.reader.spool) :
    (connection.apply now header batch workers).progress.Alike
      ((connection.withPast past).apply now header batch workers).progress := by
  have same : (connection.withPast past).dispatch header batch workers =
      connection.dispatch header batch workers := by
    simp only [withPast, spooled]
    rfl
  simp only [apply, dispatch_counted, same]
  cases connection.dispatch header batch workers with
  | error fault => exact ⟨rfl, rfl, Reply.agrees_self _⟩
  | ok result =>
      obtain ⟨barrier, queue, next⟩ := result
      simp only
      cases BatchOutcome.ofOutcomes barrier.outcomes with
      | error fault => exact ⟨rfl, rfl, Reply.agrees_self _⟩
      | ok outcome => cases outcome <;> exact ⟨rfl, rfl, Reply.agrees_self _⟩

/-- Every turn of a connection is one of the connection with another past as well. -/
theorem turn?_withPast (past : Past) (now : Elapsed) (connection : Connection) (workers : Workers) :
    Option.Rel (fun turn other => turn.progress.Alike other.progress)
      (connection.turn? now workers) ((connection.withPast past).turn? now workers) := by
  cases waits : connection.state with
  | closed outcome =>
      simp only [turn?, withPast, waits]
      exact .none
  | awaiting =>
      have reads := readMessage_withPast past connection
      simp only [turn?, withPast, waits] at reads ⊢
      rw [reads]
      cases connection.reader.readMessage with
      | starved fault reader => exact .none
      | refused fault reader =>
          exact .some (fail_withPast past _ fault { connection with reader := reader } workers)
      | done message reader =>
          exact .some (handle_withPast past now message { connection with reader := reader } workers)
  | receiving header =>
      have reads : (connection.withPast past).reader.readBatch header =
        connection.reader.readBatch header := rfl
      simp only [turn?, withPast, waits] at reads ⊢
      rw [reads]
      cases connection.reader.readBatch header with
      | starved fault reader => exact .none
      | refused fault reader =>
          exact .some (fail_withPast { past with spool := reader.spool } _ fault
            { connection with reader := reader } workers)
      | done batch reader =>
          exact .some (apply_withPast { past with spool := reader.spool } now header batch
            { connection with reader := reader } workers rfl)

theorem Progress.Alike.andThen {progress other : Progress} (alike : progress.Alike other)
    {work : Connection → Workers → Progress}
    (keeps : ∀ past, (work progress.connection progress.workers).Alike
      (work (progress.connection.withPast past) progress.workers)) :
    (progress.andThen work).Alike (other.andThen work) := by
  obtain ⟨first, workers, replies⟩ := progress
  obtain ⟨last, others, otherReplies⟩ := other
  obtain ⟨connection, rfl, agree⟩ := alike
  have rest := keeps last.toPast
  rw [← connection] at rest
  exact ⟨rest.connection, rest.workers, List.rel_append agree rest.replies⟩

theorem starve_withPast (past : Past) (connection : Connection) (workers : Workers) :
    (connection.starve workers).Alike ((connection.withPast past).starve workers) := by
  have messages := readMessage_withPast past connection
  have batches (header : BatchHeader) : (connection.withPast past).reader.readBatch header =
    connection.reader.readBatch header := rfl
  obtain ⟨source, settings, reader, queue, state, waitingSince, lastEtag, stats⟩ := connection
  cases state with
  | closed outcome => exact alike_withPast past _ workers []
  | awaiting =>
      simp only [Connection.starve, starvation?, withPast] at messages ⊢
      rw [messages]
      cases reader.readMessage with
      | starved fault reader => exact ⟨rfl, rfl, Reply.agrees_self _⟩
      | refused fault reader => exact ⟨rfl, rfl, .nil⟩
      | done message reader => exact ⟨rfl, rfl, .nil⟩
  | receiving header =>
      simp only [Connection.starve, starvation?, withPast] at batches ⊢
      rw [batches]
      cases reader.readBatch header with
      | starved fault reader => exact ⟨rfl, rfl, Reply.agrees_self _⟩
      | refused fault reader => exact ⟨rfl, rfl, .nil⟩
      | done batch reader => exact ⟨rfl, rfl, .nil⟩

theorem run_withPast (past : Past) (now : Elapsed) (connection : Connection) (workers : Workers) :
    (run now connection workers).Alike (run now (connection.withPast past) workers) := by
  -- On the weight of the connection, which every turn makes less.
  generalize weight : connection.weight = measure
  induction measure using Nat.strongRecOn generalizing past connection workers with
  | ind measure ih =>
      have turns := turn?_withPast past now connection workers
      generalize other : (connection.withPast past).turn? now workers = otherTurn at turns
      cases taken : connection.turn? now workers with
      | none =>
          rw [taken] at turns
          cases turns
          rw [run_of_rest taken, run_of_rest other]
          exact alike_withPast past connection workers []
      | some turn =>
          rw [taken] at turns
          cases turns with
          | some alike =>
              rw [run_of_turn taken, run_of_turn other]
              exact alike.andThen fun past =>
                ih _ (weight ▸ weight_lt taken) past turn.connection turn.workers rfl

theorem finish_withPast (past : Past) (now : Elapsed) (connection : Connection) (workers : Workers) :
    (finish now connection workers).Alike (finish now (connection.withPast past) workers) := by
  rw [finish_eq]
  exact (run_withPast past now connection workers).andThen fun past => starve_withPast past _ _

/-- Nothing but their past tells two connections apart that wait for the next message. -/
theorem Idle.eq_withPast (idle : connection.Idle settings) (freshIdle : fresh.Idle settings)
    (source : fresh.source = connection.source)
    (routing : fresh.queue.routing = connection.queue.routing) :
    fresh = connection.withPast fresh.toPast := by
  obtain ⟨waits, ⟨configured, maxFrame, maxAttachment, queue⟩, unread⟩ := idle
  obtain ⟨freshWaits, ⟨freshConfigured, freshMaxFrame, freshMaxAttachment, freshQueue⟩, freshUnread⟩ :=
    freshIdle
  rw [routing, ← queue] at freshQueue
  obtain ⟨_, _, ⟨_, _, _, _⟩, _, _, _, _, _⟩ := connection
  obtain ⟨_, _, ⟨_, _, _, _⟩, _, _, _, _, _⟩ := fresh
  simp only at *
  subst_vars
  rfl

end Connection

/-- Octets with one batch at most: its header, what this announces, and no other message behind that.
Each of them may be broken, or missing. -/
def OneBatch (settings : ReplicationSettings) (bytes : Bytes) : Prop :=
  ∀ (message : Message) (rest : Bytes), message.Heads settings.maxFrame bytes rest →
    ∃ header, message = .documents header ∧ ∀ (body : BatchBody) (more : Bytes),
      body.Follows header settings.maxFrame settings.maxAttachment → rest = body.encode ++ more →
        ∀ (next : Message) (last : Bytes), ¬ next.Heads settings.maxFrame more last

theorem Message.not_heads_nil (limit : Nat) (message : Message) (rest : Bytes) :
    ¬ message.Heads limit [] rest := by
  rintro ⟨head, nothing, -⟩
  have longer := congrArg List.length nothing
  simp only [List.length_nil, List.length_append, Frame.length_encode] at longer
  omega

/-- What has arrived of a batch is one batch at most, whether it is all of it or not. -/
theorem OneBatch.of_sent {body : BatchBody} {lastEtag : Int64} {frameLimit limit : Nat}
    {bytes missing : Bytes} (sent : body.Sent frameLimit limit lastEtag (bytes ++ missing))
    (settings : ReplicationSettings) : OneBatch settings bytes := by
  obtain ⟨head, arrives, -, counted, read, follows⟩ := sent
  rintro message rest ⟨other, rfl, -, otherCounted, otherRead⟩
  rw [List.append_assoc] at arrives
  obtain ⟨sameFrame, sameRest⟩ := Frame.encode_append_inj otherCounted counted arrives
  obtain rfl : other = head := congrArg Frame.payload sameFrame
  refine ⟨_, Except.ok.inj (otherRead.symm.trans read), fun otherBody more otherFollows same => ?_⟩
  rw [same, List.append_assoc, ← List.append_nil body.encode] at sameRest
  obtain ⟨-, nothing⟩ := BatchBody.encode_append_inj otherFollows follows sameRest
  rw [(List.append_eq_nil_iff.mp nothing).1]
  exact fun next last => next.not_heads_nil _ last

theorem Dialogue.poll_not_mem {source : String} {routing : Routing} {last : Workers} {bytes : Bytes}
    {exchanges : List Exchange} {ending : Ending}
    (dialogue : Dialogue settings source routing workers bytes exchanges ending last)
    (one : OneBatch settings bytes) : .poll ∉ exchanges := by
  cases dialogue with
  | done => exact List.not_mem_nil
  | poll heads =>
      obtain ⟨header, wrong, -⟩ := one _ _ heads
      contradiction
  | heartbeat heads =>
      obtain ⟨header, wrong, -⟩ := one _ _ heads
      contradiction
  | batch opens follows sliced settled later =>
      obtain ⟨header, same, alone⟩ := one _ _ opens.heads
      cases same
      have silence := alone _ _ follows rfl
      cases later with
      | done => simp
      | poll heads => exact absurd heads (silence _ _)
      | heartbeat heads => exact absurd heads (silence _ _)
      | batch opens => exact absurd opens.heads (silence _ _)

theorem Exchange.messageType_of_mem {start : Int64} {exchanges : List Exchange} {reply : Reply}
    (unpolled : .poll ∉ exchanges) (member : reply ∈ replies settings start exchanges) :
    reply.messageType ≠ Message.poll.type := by
  obtain ⟨index, within, rfl⟩ := List.mem_mapIdx.mp member
  cases told : exchanges[index] with
  | poll => exact absurd (told ▸ List.getElem_mem within) unpolled
  | heartbeat lastEtag => exact show "Heartbeat" ≠ "Notify" by decide
  | batch header outcome => cases outcome <;> exact show "Documents" ≠ "Notify" by decide

theorem Ending.messageType_of_reply {ending : Ending} {reply : Reply}
    (told : ending.reply = some reply) : reply.messageType ≠ Message.poll.type := by
  unfold Ending.reply at told
  split at told
  · contradiction
  · cases told
    cases ending.header with
    | none => exact show Message.unknownType ≠ "Notify" by decide
    | some header => exact show "Documents" ≠ "Notify" by decide

namespace Connection

/-- One batch is answered without a reply to a poll. -/
theorem Prepared.unpolled (prepared : connection.Prepared settings .empty)
    (waits : connection.state = .awaiting) (one : OneBatch settings connection.reader.unread)
    {reply : Reply} (member : reply ∈ (connection.finish now workers).replies) :
    reply.messageType ≠ Message.poll.type := by
  obtain ⟨exchanges, ending, last, dialogue, tells⟩ := prepared.tells waits now workers
  rw [tells.replies, List.mem_append, Option.mem_toList] at member
  rcases member with answered | ended
  · exact Exchange.messageType_of_mem (dialogue.poll_not_mem one) answered
  · exact Ending.messageType_of_reply ended

theorem mem_finish_of_mem_run {reply : Reply} (member : reply ∈ (connection.run now workers).replies) :
    reply ∈ (connection.finish now workers).replies := by
  rw [finish_eq]
  exact List.mem_append_left _ member

end Connection

namespace Node

variable {κ : Type} [DecidableEq κ] {key freshKey : κ} {node : Node κ}

/-- What a stream comes to at a connection with a past, and at a new one. -/
structure SameAnswers (key freshKey : κ) (seen unseen : List Reply × Node κ) : Prop where
  replies : List.Forall₂ Reply.Agrees seen.1 unseen.1
  workers : unseen.2.workers = seen.2.workers
  outcome : unseen.2.outcome? freshKey = seen.2.outcome? key
  unread : (unseen.2.connections.get? freshKey).map (·.reader.unread) =
    (seen.2.connections.get? key).map (·.reader.unread)

theorem sameAnswers_advance {work : Connection → Workers → Connection.Progress}
    (found : node.connections.get? key = some connection)
    (alike : (work connection node.workers).Alike (work fresh node.workers)) :
    SameAnswers key freshKey (node.advance key work)
      (advance freshKey work { node with connections := node.connections.insert freshKey fresh }) := by
  rw [advance_of_get? found, advance_of_get? (Dictionary.get?_insert_self ..)]
  refine ⟨alike.replies, alike.workers, ?_, ?_⟩
  · simp only [outcome?, Dictionary.get?_insert_self, Option.bind_some]
    rw [alike.connection]
    rfl
  · simp only [Dictionary.get?_insert_self, Option.map_some]
    rw [alike.connection]
    rfl

theorem receiveAll_of_idle (found : node.connections.get? key = some connection)
    (idle : connection.Idle settings) (pieces : List Bytes) :
    node.receiveAll key pieces =
      node.advance key (Connection.receive node.now pieces.flatten) := by
  cases pieces with
  | cons piece rest => exact receiveAll_eq key piece rest node
  | nil =>
      have still : connection.receive node.now [] node.workers = ⟨connection, node.workers, []⟩ := by
        rw [Connection.receive, ← Connection.fed, Connection.fed_nil,
          Connection.run_of_rest (idle.rests _ _)]
      rw [List.flatten_nil, advance_of_get? found, still, Dictionary.insert_of_get? found]
      rfl

/-- A new connection can be opened that differs from an old one in its past only. -/
theorem exists_fresh (ready : node.Ready) (sound : node.Sound)
    (found : node.connections.get? key = some connection) (waits : connection.state = .awaiting)
    (nothing : connection.reader.unread = []) :
    ∃ fresh, Connection.start node.settings connection.source node.workers node.now = .ok fresh ∧
      connection.Idle node.settings ∧ fresh.Idle node.settings ∧
      fresh = connection.withPast fresh.toPast := by
  have idle : connection.Idle node.settings :=
    ⟨waits, (ready key connection found).of_awaiting waits, nothing⟩
  have among : Routing.among node.workers.partitionCount = .ok connection.queue.routing := by
    rw [← (sound key connection found).partitionCount]
    exact Routing.among_partitionCount _
  obtain ⟨fresh, opened⟩ : ∃ fresh, Connection.start node.settings connection.source node.workers
      node.now = .ok fresh := ⟨_, by simp only [Connection.start, among, Except.ok_bind]; rfl⟩
  obtain ⟨freshIdle, source, freshAmong⟩ := Connection.idle_start opened
  exact ⟨fresh, opened, idle, freshIdle,
    idle.eq_withPast freshIdle source (Except.ok.inj (freshAmong.symm.trans among))⟩

/-- Connections answer every stream as if it were the first one. Whatever a connection has been through
since the node was started, what it makes of the octets that arrive next, and of their end, is what a
new connection of the same sender makes of them: the replies, the fault if it ends, what is left
unread, and the stores. Only a poll is told what etag was accepted before; one more batch, be it whole,
cut or broken, has the same replies. -/
theorem past_forgotten (settings : ReplicationSettings) (scheduling : SchedulerSettings)
    (partitionCount served : Nat) (stores : List Partition) (before : List (Event κ))
    (reached : node = after before (start settings (.start scheduling partitionCount served stores)))
    (found : node.connections.get? key = some connection) (waits : connection.state = .awaiting)
    (nothing : connection.reader.unread = []) (freshKey : κ) (pieces : List Bytes) :
    ∃ fresh, node.connect freshKey connection.source = .ok fresh ∧
      SameAnswers key freshKey (node.receiveAll key pieces) (fresh.receiveAll freshKey pieces) ∧
      SameAnswers key freshKey (node.deliver key pieces) (fresh.deliver freshKey pieces) ∧
      (OneBatch settings pieces.flatten →
        (node.receiveAll key pieces).1 = (fresh.receiveAll freshKey pieces).1 ∧
          (node.deliver key pieces).1 = (fresh.deliver freshKey pieces).1) := by
  have ready : node.Ready := reached ▸ (ready_start settings _).after before
  have sound : node.Sound := reached ▸ (after_spec (sound_start settings _) before).1
  have configured : node.settings = settings := reached ▸ settings_after before _
  obtain ⟨fresh, opened, idle, freshIdle, same⟩ := exists_fresh ready sound found waits nothing
  let renewed : Node κ := { node with connections := node.connections.insert freshKey fresh }
  have there : renewed.connections.get? freshKey = some fresh := Dictionary.get?_insert_self ..
  have arrives : SameAnswers key freshKey (node.receiveAll key pieces)
      (renewed.receiveAll freshKey pieces) := by
    rw [receiveAll_of_idle found idle, receiveAll_of_idle there freshIdle]
    refine sameAnswers_advance found ?_
    rw [same]
    exact Connection.run_withPast _ node.now (connection.fed pieces.flatten) node.workers
  have ends : SameAnswers key freshKey (node.deliver key pieces) (renewed.deliver freshKey pieces) := by
    rw [deliver_eq, deliver_eq]
    refine sameAnswers_advance found ?_
    rw [same]
    exact Connection.finish_withPast _ node.now (connection.fed pieces.flatten) node.workers
  refine ⟨renewed, Except.bind_eq_ok_iff.mpr ⟨fresh, opened, rfl⟩, arrives, ends, fun one => ?_⟩
  obtain ⟨prepared, unread⟩ := idle.receive pieces.flatten
  have unpolled {reply : Reply} (member : reply ∈ ((connection.fed pieces.flatten).finish node.now
      node.workers).replies) : reply.messageType ≠ Message.poll.type :=
    prepared.unpolled waits (by rw [unread, configured]; exact one) member
  refine ⟨Reply.eq_of_agrees arrives.replies fun reply member => ?_,
    Reply.eq_of_agrees ends.replies fun reply member => ?_⟩
  · rw [receiveAll_of_idle found idle, advance_of_get? found] at member
    exact unpolled (Connection.mem_finish_of_mem_run member)
  · rw [deliver_eq, advance_of_get? found] at member
    exact unpolled member

/-- A node at which a batch lacked its photo. -/
def nackedNode : Node Nat :=
  after (.connect 0 "north" :: twoTurns (octets bareBody)) emptyNode

/-- The batch with the photo as it arrives in two pieces, before its sender is lost. -/
def cutPhoto : List Bytes :=
  [(octets photoBody).take 99, ((octets photoBody).drop 99).take 200]

set_option maxRecDepth 2000 in
theorem past_forgotten_cutPhoto :
    (nackedNode.connections.get? 0).map (·.stats.nacks) = some 1 ∧
    ∃ fresh, nackedNode.connect 1 "north" = .ok fresh ∧
      SameAnswers 0 1 (nackedNode.receiveAll 0 cutPhoto) (fresh.receiveAll 1 cutPhoto) ∧
      SameAnswers 0 1 (nackedNode.deliver 0 cutPhoto) (fresh.deliver 1 cutPhoto) ∧
      (nackedNode.receiveAll 0 cutPhoto).1 = (fresh.receiveAll 1 cutPhoto).1 ∧
      (nackedNode.deliver 0 cutPhoto).1 = (fresh.deliver 1 cutPhoto).1 := by
  obtain ⟨nacked, facts⟩ : (nackedNode.connections.get? 0).map (·.stats.nacks) = some 1 ∧
      (nackedNode.connections.get? 0).map (fun connection =>
        (connection.state.name, connection.reader.unread, connection.source)) =
        some ("ReadingMessage", [], "north") := by decide +kernel
  obtain ⟨connection, found, same⟩ := Option.map_eq_some_iff.mp facts
  simp only [Prod.mk.injEq] at same
  obtain ⟨name, nothing, source⟩ := same
  have waits : connection.state = .awaiting := by
    cases state : connection.state with
    | awaiting => rfl
    | receiving header => simp [state, ConnectionState.name] at name
    | closed outcome => simp [state, ConnectionState.name] at name
  have sent : photoBody.Sent ReplicationSettings.standard.maxFrame
      ReplicationSettings.standard.maxAttachment 12 (cutPhoto.flatten ++ (octets photoBody).drop 299) :=
    ⟨(Message.documents (photoBody.header 12)).header, by decide +kernel⟩
  obtain ⟨fresh, opened, arrives, ends, replies⟩ :=
    past_forgotten .standard _ 2 2 _ _ rfl found waits nothing 1 cutPhoto
  rw [source] at opened
  exact ⟨nacked, fresh, opened, arrives, ends, replies (.of_sent sent _)⟩

end Node

end DocumentReplication
