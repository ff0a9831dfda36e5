import DocumentReplication.Proofs.Connection.Ready
import DocumentReplication.Proofs.Wire.Arrival

/-!
Batches that never reach a partition. What follows a documents header may not be the batch it
announced, or may end early, or may hold a change that no partition can be found for. However its
octets arrive, the sender is told once what is wrong, the connection ends, and every store is as it
was: a batch is read as a whole before any of its changes is queued, and queued as a whole before any
partition gets its slice.
-/

namespace DocumentReplication

variable {settings : ReplicationSettings} {partitionCount : Nat} {header : BatchHeader}
  {stream left : Bytes} {verdict : Fault.Class} {fault : Fault} {connection : Connection}
  {workers : Workers} {now : Elapsed} {reader : WireReader}

/-- What is wrong with the octets that follow a documents header, and who is to blame for it. -/
inductive Broken (settings : ReplicationSettings) (partitionCount : Nat) (header : BatchHeader)
    (stream : Bytes) : Fault.Class → Prop
  /-- More is announced than the settings allow. -/
  | oversized
      (beyond : settings.maxItems < header.itemCount ∨ settings.maxStreams < header.streamCount) :
      Broken settings partitionCount header stream .protocolViolation
  /-- The octets do not begin with any batch that the header announces. -/
  | malformed
      (differs : ∀ (body : BatchBody) (rest : Bytes),
        body.Follows header settings.maxFrame settings.maxAttachment → stream ≠ body.encode ++ rest) :
      Broken settings partitionCount header stream .protocolViolation
  /-- The octets end before the batch does. -/
  | cut {body : BatchBody} {missing : Bytes}
      (follows : body.Follows header settings.maxFrame settings.maxAttachment)
      (begins : body.encode = stream ++ missing) (early : missing ≠ []) :
      Broken settings partitionCount header stream .protocolViolation
  /-- The deletion of a revision, which does not tell its document, where there are several
  partitions. -/
  | unroutable {body : BatchBody} {rest : Bytes} {change : Change}
      (items : header.itemCount ≤ settings.maxItems)
      (streams : header.streamCount ≤ settings.maxStreams)
      (follows : body.Follows header settings.maxFrame settings.maxAttachment)
      (begins : stream = body.encode ++ rest) (member : change ∈ body.changes)
      (revision : change.kind = .revisionTombstone) (several : 1 < partitionCount) :
      Broken settings partitionCount header stream .unsupportedOperation

namespace Broken

theorem ne_networkFault (broken : Broken settings partitionCount header stream verdict) :
    verdict ≠ .networkFault := by
  cases broken <;> exact nofun

/-- A header beyond the limits is a violation by the sender, whatever follows it. -/
theorem of_check (broken : Broken settings partitionCount header stream verdict) {cause : WireFault}
    (failed : header.check settings.maxItems settings.maxStreams = .error cause) :
    verdict = .protocolViolation := by
  cases broken with
  | oversized => rfl
  | malformed => rfl
  | cut => rfl
  | unroutable items streams =>
      simp only [BatchHeader.check, Nat.not_lt.mpr items, Nat.not_lt.mpr streams, if_false] at failed
      contradiction

/-- Under a header within the limits, what is broken cannot be read, or cannot be routed. -/
theorem reading (broken : Broken settings partitionCount header reader.unread verdict)
    (checked : header.check settings.maxItems settings.maxStreams = .ok ())
    (maxFrame : reader.maxFrame = settings.maxFrame)
    (maxAttachment : reader.maxAttachment = settings.maxAttachment) :
    (verdict = .protocolViolation ∧ ∀ batch next, reader.readBatch header ≠ .done batch next) ∨
    (verdict = .unsupportedOperation ∧ 1 < partitionCount ∧
      ∃ (batch : IncomingBatch) (next : WireReader) (change : Change),
        reader.readBatch header = .done batch next ∧
          change ∈ batch.changes ∧ change.kind = .revisionTombstone) := by
  cases broken with
  | oversized beyond =>
      unfold BatchHeader.check at checked
      split at checked
      · contradiction
      · split at checked
        · contradiction
        · omega
  | malformed differs =>
      refine .inl ⟨rfl, fun batch next found => ?_⟩
      obtain ⟨body, rest, same, follows, -, -⟩ := WireReader.readBatch_eq_done_iff.mp found
      rw [maxFrame, maxAttachment] at follows
      exact differs body rest follows same
  | cut follows begins early =>
      -- A batch that is all there would not begin another one.
      refine .inl ⟨rfl, fun batch next found => early ?_⟩
      obtain ⟨body, rest, same, otherFollows, -, -⟩ := WireReader.readBatch_eq_done_iff.mp found
      rw [maxFrame, maxAttachment] at otherFollows
      rw [same, List.append_assoc] at begins
      obtain ⟨-, nothing⟩ := BatchBody.encode_append_inj follows otherFollows
        ((List.append_nil _).trans begins)
      exact (List.append_eq_nil_iff.mp nothing.symm).2
  | unroutable items streams follows begins member revision several =>
      rw [← maxFrame, ← maxAttachment] at follows
      exact .inr ⟨rfl, several, _, _, _,
        WireReader.readBatch_eq_done_iff.mpr ⟨_, _, begins, follows, rfl, rfl⟩, member, revision⟩

end Broken

namespace Connection

/-- The sender has been told what is wrong, and the connection has ended with that. -/
def Rejected (verdict : Fault.Class) (connection : Connection) (replies : List Reply) : Prop :=
  ∃ fault, connection.state = .closed (.error fault) ∧ fault.classify = verdict ∧
    replies = [.failed "Documents" fault.message]

theorem rejected_fail (connection : Connection) (classified : fault.classify = verdict)
    (spoken : verdict ≠ .networkFault) :
    Rejected verdict (connection.fail "Documents" fault).1
      (connection.fail "Documents" fault).2.toList := by
  subst classified
  refine ⟨fault, rfl, rfl, ?_⟩
  have silent : fault.isNetworkFault = false := by
    unfold Fault.isNetworkFault
    exact beq_false_of_ne spoken
  simp only [fail, silent, Bool.false_eq_true, if_false, Option.toList_some]

theorem dispatch_unroutable {body : BatchBody} {change : Change}
    (prepared : connection.Prepared settings .filling)
    (several : connection.queue.routing.partitionCount ≠ 1)
    (spooled : connection.reader.spool.content = body.payloads.flatMap (·.2))
    (member : change ∈ body.changes) (revision : change.kind = .revisionTombstone) :
    ∃ revision, connection.dispatch header ⟨body.changes, Spool.regions 0 body.payloads⟩ workers =
      .error (.unsupported (.revisionWithoutDocument revision)) := by
  have loaded := @Spool.load_regions connection.reader body.payloads [] [] (by simpa using spooled)
  have fills : connection.queue.state = .filling := by rw [prepared.queue]
  obtain ⟨revision, failed⟩ :=
    @BatchQueue.fill_unroutable _ body.payloads _ _ fills several member revision
  refine ⟨revision, ?_⟩
  rw [List.length_nil] at loaded
  simp only [dispatch, loaded, Except.ok_bind, failed, Except.error_bind]

/-- A batch that does not get as far as the partitions is the end of its connection. -/
theorem rejected_apply {batch : IncomingBatch} (now : Elapsed)
    (failed : connection.dispatch header batch workers = .error fault)
    (spoken : fault.classify ≠ .networkFault) :
    (connection.apply now header batch workers).workers = workers ∧
      Rejected fault.classify (connection.apply now header batch workers).connection
        (connection.apply now header batch workers).reply.toList := by
  have counted (stats : ConnectionStats) :
      dispatch header batch { connection with stats := stats } workers = .error fault := failed
  simp only [apply, counted]
  exact ⟨trivial, rejected_fail _ rfl spoken⟩

/-- A broken batch is on its way, and so many of its octets have not arrived yet. -/
inductive Doomed (settings : ReplicationSettings) (partitionCount : Nat) (verdict : Fault.Class)
    (left : Bytes) (connection : Connection) : Prop
  | announced {head stream : Bytes} {header : BatchHeader} (waits : connection.state = .awaiting)
      (arrives : connection.reader.unread ++ left = Frame.encode ⟨.message, head⟩ ++ stream)
      (within : head.length ≤ settings.maxFrame) (counted : head.length < UInt32.size)
      (read : Message.ofPayload head = .ok (.documents header))
      (broken : Broken settings partitionCount header stream verdict)
  | receiving {header : BatchHeader} (waits : connection.state = .receiving header)
      (broken : Broken settings partitionCount header (connection.reader.unread ++ left) verdict)

theorem Doomed.receive {piece rest : Bytes}
    (doomed : connection.Doomed settings partitionCount verdict (piece ++ rest)) :
    Doomed settings partitionCount verdict rest
      { connection with reader := connection.reader.receive piece } := by
  have same : (connection.reader.receive piece).unread ++ rest =
      connection.reader.unread ++ (piece ++ rest) := List.append_assoc ..
  cases doomed with
  | announced waits arrives within counted read broken =>
      exact .announced waits (same.trans arrives) within counted read broken
  | receiving waits broken =>
      refine .receiving waits ?_
      simp only [same]
      exact broken

/-- The header of a broken batch is refused, or the batch is awaited. -/
theorem Prepared.expect_broken (prepared : connection.Prepared settings .empty)
    (broken : Broken settings partitionCount header (connection.reader.unread ++ left) verdict) :
    ((connection.expect header).2 = none ∧
        (connection.expect header).1.Doomed settings partitionCount verdict left) ∨
      Rejected verdict (connection.expect header).1 (connection.expect header).2.toList := by
  rw [prepared.expect_eq]
  cases checked : header.check settings.maxItems settings.maxStreams with
  | ok =>
      left
      exact ⟨rfl, .receiving rfl broken⟩
  | error cause =>
      right
      obtain rfl := broken.of_check checked
      exact rejected_fail connection rfl (by decide)

/-- Once its header has arrived, a broken batch is rejected or awaited. -/
theorem turn_announced {head : Bytes} (ready : connection.Ready settings)
    (waits : connection.state = .awaiting)
    (arrives : connection.reader.unread ++ left = Frame.encode ⟨.message, head⟩ ++ stream)
    (within : head.length ≤ settings.maxFrame) (counted : head.length < UInt32.size)
    (read : Message.ofPayload head = .ok (.documents header))
    (broken : Broken settings partitionCount header stream verdict) {turn : Turn}
    (taken : connection.turn? now workers = some turn) :
    turn.workers = workers ∧
      ((turn.reply = none ∧ turn.connection.Doomed settings partitionCount verdict left) ∨
        Rejected verdict turn.connection turn.reply.toList) := by
  have before := ready.of_awaiting waits
  have whole : (connection.reader.receive left).readMessage =
      .done (.documents header) { connection.reader.receive left with unread := stream } := by
    rw [WireReader.readMessage_eq_done_iff]
    exact ⟨head, stream, arrives, before.maxFrame ▸ within, counted, read, rfl⟩
  have grows := WireReader.gradual_readMessage connection.reader left
  rw [whole] at grows
  unfold turn? at taken
  simp only [waits] at taken
  split at taken
  · contradiction
  · rename_i refused
    rw [refused] at grows
    cases grows.of_refused
  · rename_i message next found
    rw [found] at grows
    obtain ⟨rfl, same⟩ := Intake.done.inj grows.of_done
    cases taken
    obtain ⟨_, rest, -, -, -, -, rfl⟩ := WireReader.readMessage_eq_done_iff.mp found
    have stream : stream = rest ++ left := congrArg WireReader.unread same
    have prepared (stats : ConnectionStats) : Prepared settings .empty { connection with
        reader := { connection.reader with unread := rest }, stats := stats } :=
      ⟨before.configured, before.maxFrame, before.maxAttachment, before.queue⟩
    exact ⟨rfl, (prepared _).expect_broken (stream ▸ broken)⟩

/-- A broken batch that is awaited is rejected by the turn that has to do with its octets. -/
theorem turn_broken (ready : connection.Ready settings) (sound : connection.Sound partitionCount)
    (waits : connection.state = .receiving header)
    (broken : Broken settings partitionCount header (connection.reader.unread ++ left) verdict)
    {turn : Turn} (taken : connection.turn? now workers = some turn) :
    turn.workers = workers ∧ Rejected verdict turn.connection turn.reply.toList := by
  obtain ⟨before, checked⟩ := ready.of_receiving waits
  have grows := WireReader.gradual_readBatch header connection.reader left
  have whole := @Broken.reading _ _ _ _ (connection.reader.receive left) broken checked
    before.maxFrame before.maxAttachment
  unfold turn? at taken
  simp only [waits] at taken
  split at taken
  · contradiction
  · rename_i fault next refused
    rw [refused] at grows
    cases taken
    refine ⟨rfl, rejected_fail _ ?_ broken.ne_networkFault⟩
    have violation := WireReader.readBatch_failsWith header connection.reader
    rw [refused] at violation
    rcases whole with ⟨rfl, -⟩ | ⟨-, -, batch, last, change, done, -⟩
    · exact Fault.IsViolation.classify violation
    · rw [grows.of_refused] at done
      contradiction
  · rename_i batch next found
    rw [found] at grows
    cases taken
    rcases whole with ⟨-, never⟩ | ⟨rfl, several, _, last, change, done, member, revision⟩
    · exact absurd grows.of_done (never _ _)
    · rw [grows.of_done] at done
      obtain ⟨rfl, -⟩ := Intake.done.inj done
      obtain ⟨read, rest, -, -, same, rfl⟩ := WireReader.readBatch_eq_done_iff.mp found
      subst same
      have prepared : Prepared settings .filling { connection with reader :=
          { connection.reader with
            spool := ⟨read.payloads.flatMap (·.2)⟩, unread := rest } } :=
        ⟨before.configured, before.maxFrame, before.maxAttachment, before.queue⟩
      have many : connection.queue.routing.partitionCount ≠ 1 := by
        rw [sound.partitionCount]
        omega
      obtain ⟨_, failed⟩ := dispatch_unroutable prepared many rfl member revision
      exact rejected_apply now failed nofun

/-- One turn rejects a broken batch or brings it nearer, and nothing reaches the workers. -/
theorem Doomed.turn (doomed : connection.Doomed settings partitionCount verdict left)
    (ready : connection.Ready settings) (sound : connection.Sound partitionCount) {turn : Turn}
    (taken : connection.turn? now workers = some turn) :
    turn.workers = workers ∧
      ((turn.reply = none ∧ turn.connection.Doomed settings partitionCount verdict left) ∨
        Rejected verdict turn.connection turn.reply.toList) := by
  cases doomed with
  | announced waits arrives within counted read broken =>
      exact turn_announced ready waits arrives within counted read broken taken
  | receiving waits broken =>
      obtain ⟨same, rejected⟩ := turn_broken ready sound waits broken taken
      exact ⟨same, .inr rejected⟩

/-- When no more octets come, a connection that waits for the rest of a broken batch ends as well. -/
theorem Doomed.starve (doomed : connection.Doomed settings partitionCount verdict [])
    (ready : connection.Ready settings) (rests : connection.turn? now workers = none) :
    (connection.starve workers).workers = workers ∧
      Rejected verdict (connection.starve workers).connection
        (connection.starve workers).replies := by
  unfold turn? at rests
  unfold Connection.starve starvation?
  cases doomed with
  | announced waits arrives within counted read broken =>
      -- The header is there as a whole, so there is a turn to take.
      rw [List.append_nil] at arrives
      have found := WireReader.readMessage_eq_done_iff.mpr
        ⟨_, _, arrives, (ready.of_awaiting waits).maxFrame ▸ within, counted, read, rfl⟩
      simp only [waits, found, reduceCtorEq] at rests
  | @receiving header waits broken =>
      obtain ⟨before, checked⟩ := ready.of_receiving waits
      have spoken := broken.ne_networkFault
      rw [List.append_nil] at broken
      have violation := WireReader.readBatch_failsWith header connection.reader
      simp only [waits] at rests ⊢
      cases found : connection.reader.readBatch header with
      | done batch next => simp only [found, reduceCtorEq] at rests
      | refused fault next => simp only [found, reduceCtorEq] at rests
      | starved fault next =>
          rw [found] at violation
          refine ⟨rfl, rejected_fail _ ?_ spoken⟩
          rcases broken.reading checked before.maxFrame before.maxAttachment with
            ⟨rfl, -⟩ | ⟨-, -, _, _, _, done, -⟩
          · exact Fault.IsViolation.classify violation
          · rw [found] at done
            contradiction

/-- As many turns as the octets at hand allow. -/
theorem Doomed.run (doomed : connection.Doomed settings partitionCount verdict left)
    (ready : connection.Ready settings) (sound : connection.Sound partitionCount) (now : Elapsed)
    (workers : Workers) :
    (connection.run now workers).workers = workers ∧
      ((connection.run now workers).replies = [] ∧
          (connection.run now workers).connection.turn? now workers = none ∧
          (connection.run now workers).connection.Ready settings ∧
          (connection.run now workers).connection.Sound partitionCount ∧
          (connection.run now workers).connection.Doomed settings partitionCount verdict left ∨
        Rejected verdict (connection.run now workers).connection
          (connection.run now workers).replies) := by
  -- On the weight of the connection, which every turn makes less.
  generalize weight : connection.weight = measure
  induction measure using Nat.strongRecOn generalizing connection with
  | ind measure ih =>
      cases taken : connection.turn? now workers with
      | none =>
          rw [run_of_rest taken]
          exact ⟨rfl, .inl ⟨rfl, taken, ready, sound, doomed⟩⟩
      | some turn =>
          rw [run_of_turn taken]
          obtain ⟨same, ⟨silent, nearer⟩ | rejected⟩ := doomed.turn ready sound taken
          · rw [same, silent]
            exact ih _ (weight ▸ weight_lt taken) nearer (ready.turn taken)
              (turn_spec taken sound).1 rfl
          · have ended := rejected
            obtain ⟨fault, closed, -⟩ := ended
            rw [run_of_closed closed, same, List.append_nil]
            exact ⟨rfl, .inr rejected⟩

theorem Doomed.finish (doomed : connection.Doomed settings partitionCount verdict [])
    (ready : connection.Ready settings) (sound : connection.Sound partitionCount) (now : Elapsed)
    (workers : Workers) :
    (connection.finish now workers).workers = workers ∧
      Rejected verdict (connection.finish now workers).connection
        (connection.finish now workers).replies := by
  obtain ⟨same, left⟩ := doomed.run ready sound now workers
  rw [finish_eq]
  simp only [Progress.andThen, same]
  rcases left with ⟨silent, rests, stillReady, -, stillDoomed⟩ | rejected
  · rw [silent, List.nil_append]
    exact stillDoomed.starve stillReady rests
  · have ended := rejected
    obtain ⟨fault, closed, -⟩ := ended
    rw [starve_of_closed closed, List.append_nil]
    exact ⟨rfl, rejected⟩

end Connection

namespace Node

variable {κ : Type} [DecidableEq κ] {key : κ} {node : Node κ}

/-- What a sender sends until it closes its side, in the pieces that it arrives in. -/
def deliver (key : κ) : List Bytes → Node κ → List Reply × Node κ
  | [], node => node.finish key
  | piece :: rest, node =>
    let (replies, next) := node.receive key piece
    let (others, last) := deliver key rest next
    (replies ++ others, last)

theorem deliver_cons (key : κ) (piece : Bytes) (rest : List Bytes) (node : Node κ) :
    node.deliver key (piece :: rest) =
      ((node.receive key piece).1 ++ ((node.receive key piece).2.deliver key rest).1,
        ((node.receive key piece).2.deliver key rest).2) := rfl

/-- A connection that has ended answers nothing more. -/
theorem deliver_of_closed (node : Node κ) {outcome : Except Fault Unit}
    (found : node.connections.get? key = some connection)
    (closed : connection.state = .closed outcome) (pieces : List Bytes) :
    (node.deliver key pieces).1 = [] ∧ (node.deliver key pieces).2.outcome? key = some outcome ∧
      (node.deliver key pieces).2.workers = node.workers := by
  induction pieces generalizing node connection with
  | nil =>
      have finished : connection.finish node.now node.workers = ⟨connection, node.workers, []⟩ := by
        simp only [Connection.finish_eq, Connection.run_of_closed closed,
          Connection.Progress.andThen, Connection.starve_of_closed closed, List.append_nil]
      simp only [deliver, finish, advance_of_get? found, finished]
      refine ⟨trivial, ?_, trivial⟩
      simp only [outcome?, Dictionary.get?_insert_self, Option.bind_some, Connection.outcome?, closed]
  | cons piece rest ih =>
      let fed : Connection := { connection with reader := connection.reader.receive piece }
      have fedClosed : fed.state = .closed outcome := closed
      rw [deliver_cons]
      simp only [receive, advance_of_get? found, Connection.receive]
      rw [Connection.run_of_closed fedClosed]
      exact ih _ (Dictionary.get?_insert_self ..) fedClosed

theorem deliver_of_doomed (found : node.connections.get? key = some connection)
    (ready : connection.Ready settings) (sound : connection.Sound partitionCount)
    (pieces : List Bytes)
    (doomed : connection.Doomed settings partitionCount verdict pieces.flatten) :
    ∃ fault, (node.deliver key pieces).1 = [.failed "Documents" fault.message] ∧
      (node.deliver key pieces).2.outcome? key = some (.error fault) ∧ fault.classify = verdict ∧
      (node.deliver key pieces).2.workers = node.workers := by
  induction pieces generalizing node connection with
  | nil =>
      obtain ⟨unchanged, fault, closed, classified, replies⟩ :=
        doomed.finish ready sound node.now node.workers
      simp only [deliver, finish, advance_of_get? found]
      refine ⟨fault, replies, ?_, classified, unchanged⟩
      simp only [outcome?, Dictionary.get?_insert_self, Option.bind_some, Connection.outcome?, closed]
  | cons piece rest ih =>
      obtain ⟨same, left⟩ :=
        doomed.receive.run (ready.receive piece) ⟨sound.queue, sound.partitionCount⟩ node.now
          node.workers
      rw [deliver_cons]
      simp only [receive, advance_of_get? found, Connection.receive, same]
      rcases left with ⟨silent, -, nextReady, nextSound, nextDoomed⟩ | ⟨fault, closed, classified, told⟩
      · rw [silent, List.nil_append]
        exact ih (Dictionary.get?_insert_self ..) nextReady nextSound nextDoomed
      · obtain ⟨replies, outcome, unchanged⟩ := deliver_of_closed
          { node with connections := node.connections.insert key _ }
          (Dictionary.get?_insert_self ..) closed rest
        rw [told, replies]
        exact ⟨fault, rfl, outcome, classified, unchanged⟩

/-- A broken batch leaves no trace. Whatever the stores held when the node was started and whatever
happened since: when a connection gets a documents header that is not followed by the batch it
announces, or by one that cannot be routed, the sender gets one reply, the connection ends with a
fault of the sender, and no store changes, wherever the stream is cut into pieces or ends. -/
theorem broken_leaves_no_trace (settings : ReplicationSettings) (scheduling : SchedulerSettings)
    (partitionCount served : Nat) (stores : List Partition) (before : List (Event κ))
    {pieces : List Bytes} {head : Bytes}
    (found : (after before (start settings
      (.start scheduling partitionCount served stores))).connections.get? key = some connection)
    (waits : connection.state = .awaiting)
    (arrives : connection.reader.unread ++ pieces.flatten =
      Frame.encode ⟨.message, head⟩ ++ stream)
    (within : head.length ≤ settings.maxFrame) (counted : head.length < UInt32.size)
    (read : Message.ofPayload head = .ok (.documents header))
    (broken : Broken settings partitionCount header stream verdict) :
    let node := after before (start settings (.start scheduling partitionCount served stores))
    ∃ reply fault, (node.deliver key pieces).1 = [reply] ∧
      reply.kind = .error ∧ reply.messageType = "Documents" ∧ reply.lastEtagAccepted = -1 ∧
      reply.exception = some fault.message ∧
      (node.deliver key pieces).2.outcome? key = some (.error fault) ∧
      fault.classify = verdict ∧ fault.isNetworkFault = false ∧
      (node.deliver key pieces).2.workers = node.workers := by
  intro node
  obtain ⟨nodeSound, follows⟩ := after_spec
    (sound_start settings (.start scheduling partitionCount served stores)) before
  have ready : connection.Ready settings := by
    have started := (ready_start (κ := κ) settings
      (.start scheduling partitionCount served stores)).after before key connection found
    rwa [settings_after] at started
  have sound : connection.Sound partitionCount := by
    have shared := nodeSound key connection found
    rwa [follows.partitionCount] at shared
  obtain ⟨fault, replies, outcome, classified, unchanged⟩ := deliver_of_doomed found ready sound
    pieces (.announced waits arrives within counted read broken)
  have spoken : fault.isNetworkFault = false := by
    unfold Fault.isNetworkFault
    rw [classified]
    exact beq_false_of_ne broken.ne_networkFault
  exact ⟨_, fault, replies, rfl, rfl, rfl, rfl, outcome, classified, spoken, unchanged⟩

/-- A document and the deletion of a revision. -/
def revisionBody : BatchBody where
  changes := [⟨⟨"RV:3-A", 11, .epoch, 0⟩, .document "users/1" "users" [1]⟩,
    ⟨⟨"RV:4-A", 12, .epoch, 0⟩, .revisionTombstone "RV:2-A" "users"⟩]
  payloads := []

def revisionHeader : BatchHeader := ⟨12, 2, 0⟩

def revisionStream : Bytes :=
  (Message.documents revisionHeader).frame.encode ++ revisionBody.encode

/-- Two partitions, and a connection that has got the start of the stream. -/
def revisionNode : Node Nat :=
  after [.connect 0 "north", .arrive 0 (revisionStream.take 4)]
    (start .standard (.start ⟨8, 8, 1000, []⟩ 2 2 [.create .memory, .create .mapped]))

def revisionPieces : List Bytes :=
  [(revisionStream.drop 4).take 150, (revisionStream.drop 4).drop 150]

theorem broken_leaves_no_trace_revisionPieces :
    ∃ reply fault, (revisionNode.deliver 0 revisionPieces).1 = [reply] ∧
      reply.kind = .error ∧ reply.messageType = "Documents" ∧ reply.lastEtagAccepted = -1 ∧
      reply.exception = some fault.message ∧
      (revisionNode.deliver 0 revisionPieces).2.outcome? 0 = some (.error fault) ∧
      fault.classify = .unsupportedOperation ∧ fault.isNetworkFault = false ∧
      (revisionNode.deliver 0 revisionPieces).2.workers = revisionNode.workers := by
  obtain ⟨connection, found, waits, unread⟩ : ∃ connection,
      revisionNode.connections.get? 0 = some connection ∧ connection.state = .awaiting ∧
        connection.reader.unread = revisionStream.take 4 := ⟨_, rfl, rfl, rfl⟩
  have arrives : connection.reader.unread ++ revisionPieces.flatten = revisionStream := by
    simp only [unread, revisionPieces, List.flatten_cons, List.flatten_nil, List.append_nil,
      List.take_append_drop]
  have follows : revisionBody.Follows revisionHeader ReplicationSettings.standard.maxFrame
      ReplicationSettings.standard.maxAttachment := by decide +kernel
  exact broken_leaves_no_trace .standard _ 2 2 _ _ found waits arrives (by decide +kernel)
    (by decide +kernel) (by decide +kernel)
    (.unroutable (by decide) (by decide) follows (List.append_nil _).symm
      (List.mem_cons_of_mem _ List.mem_cons_self) rfl (by decide))

end Node

end DocumentReplication
