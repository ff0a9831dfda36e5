import DocumentReplication.Proofs.Connection.Ready
import DocumentReplication.Proofs.Fanout.Resend

/-!
Whole batches at connections that wait for them. When a batch arrives as a whole, a connection that
has nothing else to read either reports an error, or its reply tells what the partitions made of the
slices of the batch; then it is as ready for the next message as it was before.
-/

namespace DocumentReplication

open BatchQueue (slicesFor)

variable {settings : ReplicationSettings} {header : BatchHeader} {body : BatchBody}
  {connection filling loaded : Connection} {workers : Workers} {now : Elapsed} {routing : Routing}
  {items : Nat → List Item} {outcome : BatchOutcome} {head bytes stream : Bytes}
  {source : String} {lastEtag : Int64} {frameLimit limit : Nat}

theorem Routing.among_partitionCount (routing : Routing) :
    among routing.partitionCount = .ok routing :=
  dif_pos routing.positive

namespace BatchBody

/-- What each partition gets of a batch, if the batch can be routed. -/
def slices? (routing : Routing) (body : BatchBody) : Except Fault (Nat → List Item) :=
  (BatchQueue.fill (body.changes.map .change) body.payloads
    { BatchQueue.create routing with state := .filling }).map BatchQueue.pendingFor

/-- Every partition gets the same changes where the batch comes without payloads. -/
theorem splits_of_slices? {full : Nat → List Item} (sliced : body.slices? routing = .ok full) :
    ∃ bare, slices? routing { body with payloads := [] } = .ok bare ∧
      ∀ partition, body.Splits (bare partition) (full partition) := by
  obtain ⟨filled, fills, rfl⟩ := Except.map_eq_ok_iff.mp sliced
  obtain ⟨middle, pushes, pushed, copied⟩ := BatchQueue.adds_fill fills
  refine ⟨middle.pendingFor, Except.map_eq_ok_iff.mpr ⟨middle, pushes, rfl⟩, fun partition => ?_⟩
  obtain ⟨changes, waits, listed⟩ := pushed.adds partition
  obtain ⟨copies, behind, sent⟩ := copied.adds partition
  rw [BatchQueue.pendingFor_create, List.nil_append] at waits
  refine ⟨fun item member => ?_, copies, behind, sent⟩
  rw [waits] at member
  obtain ⟨change, inBatch, same⟩ := List.mem_map.mp (listed item member)
  exact ⟨change, inBatch, same.symm⟩

/-- Octets of a batch that settings allow. -/
def Admitted (settings : ReplicationSettings) (lastEtag : Int64) (body : BatchBody)
    (bytes : Bytes) : Prop :=
  (body.header lastEtag).check settings.maxItems settings.maxStreams = .ok () ∧
    body.Sent settings.maxFrame settings.maxAttachment lastEtag bytes

end BatchBody

/-- What the sender is told when no partition had a fault that ends the connection. -/
def BatchOutcome.reply (settings : ReplicationSettings) (lastEtag : Int64) : BatchOutcome → Reply
  | applied _ => .accepted "Documents" lastEtag settings.nodeTag
  | attachmentsMissing reason => .attachmentsMissing "Documents" reason.message

/-- Octets that begin with a message, within a limit on its frame. -/
def Message.Heads (limit : Nat) (message : Message) (bytes rest : Bytes) : Prop :=
  ∃ head, bytes = Frame.encode ⟨.message, head⟩ ++ rest ∧ head.length ≤ limit ∧
    head.length < UInt32.size ∧ ofPayload head = .ok message

def Turn.progress (turn : Turn) : Connection.Progress :=
  ⟨turn.connection, turn.workers, turn.reply.toList⟩

namespace Connection

variable {reply : Reply}

theorem kind_of_fail {messageType : String} {fault : Fault}
    (member : reply ∈ ((Turn.progress ⟨(filling.fail messageType fault).1, workers,
      (filling.fail messageType fault).2⟩).andThen (run now)).replies) : reply.kind = .error := by
  simp only [Progress.andThen, Turn.progress] at member
  rw [run_of_closed rfl, List.append_nil] at member
  exact reply_fail (Option.mem_toList.mp member)

theorem run_of_failing {messageType : String} {fault : Fault}
    (taken : connection.turn? now workers =
      some ⟨(filling.fail messageType fault).1, workers, (filling.fail messageType fault).2⟩)
    (member : reply ∈ (connection.run now workers).replies) : reply.kind = .error := by
  rw [run_of_turn taken] at member
  exact kind_of_fail member

theorem run_of_unreadMessage (waits : connection.state = .awaiting)
    (never : ∀ message next, connection.reader.readMessage ≠ .done message next)
    (member : reply ∈ (connection.run now workers).replies) : reply.kind = .error := by
  cases found : connection.reader.readMessage with
  | done message next => exact absurd found (never message next)
  | refused fault next =>
      exact run_of_failing (by simp only [turn?, waits, found]; rfl) member
  | starved fault next =>
      have rests : connection.turn? now workers = none := by simp only [turn?, waits, found]
      rw [run_of_rest rests] at member
      contradiction

theorem run_of_unreadBatch (waits : connection.state = .receiving header)
    (never : ∀ batch next, connection.reader.readBatch header ≠ .done batch next)
    (member : reply ∈ (connection.run now workers).replies) : reply.kind = .error := by
  cases found : connection.reader.readBatch header with
  | done batch next => exact absurd found (never batch next)
  | refused fault next =>
      exact run_of_failing (by simp only [turn?, waits, found]; rfl) member
  | starved fault next =>
      have rests : connection.turn? now workers = none := by simp only [turn?, waits, found]
      rw [run_of_rest rests] at member
      contradiction

/-- The connection after it has read a message. -/
def past (rest : Bytes) (connection : Connection) : Connection :=
  { connection with reader := { connection.reader with unread := rest } }

theorem Prepared.turn?_message {message : Message}
    (prepared : connection.Prepared settings .empty) (waits : connection.state = .awaiting)
    (heads : message.Heads settings.maxFrame connection.reader.unread stream) (now : Elapsed)
    (workers : Workers) :
    connection.turn? now workers = some ⟨((connection.past stream).handle now message).1, workers,
      ((connection.past stream).handle now message).2⟩ := by
  obtain ⟨head, arrives, within, counted, read⟩ := heads
  have found := WireReader.readMessage_eq_done_iff.mpr
    ⟨head, stream, arrives, prepared.maxFrame ▸ within, counted, read, rfl⟩
  simp only [turn?, waits, found]
  rfl

/-- A connection that has read the header of a batch, and has this left to read. -/
structure Opened (settings : ReplicationSettings) (source : String) (routing : Routing)
    (header : BatchHeader) (stream : Bytes) (filling : Connection) : Prop where
  waits : filling.state = .receiving header
  prepared : filling.Prepared settings .filling
  unread : filling.reader.unread = stream
  source : filling.source = source
  routing : filling.queue.routing = routing

theorem Prepared.turn?_header (prepared : connection.Prepared settings .empty)
    (waits : connection.state = .awaiting)
    (arrives : connection.reader.unread = Frame.encode ⟨.message, head⟩ ++ stream)
    (within : head.length ≤ settings.maxFrame) (counted : head.length < UInt32.size)
    (read : Message.ofPayload head = .ok (.documents header)) (now : Elapsed) (workers : Workers) :
    ∃ opening : Connection, opening.Prepared settings .empty ∧ opening.reader.unread = stream ∧
      opening.source = connection.source ∧ opening.queue.routing = connection.queue.routing ∧
      connection.turn? now workers =
        some ⟨(opening.expect header).1, workers, (opening.expect header).2⟩ := by
  refine ⟨{ connection.past stream with
    stats := { connection.stats with messages := connection.stats.messages + 1 } },
    ⟨prepared.configured, prepared.maxFrame, prepared.maxAttachment, prepared.queue⟩, rfl, rfl, rfl,
    ?_⟩
  exact prepared.turn?_message waits ⟨head, arrives, within, counted, read⟩ now workers

theorem Prepared.run_header (prepared : connection.Prepared settings .empty)
    (waits : connection.state = .awaiting)
    (arrives : connection.reader.unread = Frame.encode ⟨.message, head⟩ ++ stream)
    (within : head.length ≤ settings.maxFrame) (counted : head.length < UInt32.size)
    (read : Message.ofPayload head = .ok (.documents header))
    (checked : header.check settings.maxItems settings.maxStreams = .ok ()) (now : Elapsed)
    (workers : Workers) :
    ∃ filling,
      Opened settings connection.source connection.queue.routing header stream filling ∧
      connection.run now workers = filling.run now workers := by
  obtain ⟨opening, ready, rfl, source, routing, taken⟩ :=
    prepared.turn?_header waits arrives within counted read now workers
  simp only [ready.expect_eq, checked] at taken
  have queue := congrArg (fun queue : BatchQueue => { queue with state := .filling }) ready.queue
  refine ⟨{ opening with
    queue := { opening.queue with state := .filling }, state := .receiving header },
    ⟨rfl, ⟨ready.configured, ready.maxFrame, ready.maxAttachment, queue⟩, rfl, source, routing⟩, ?_⟩
  rw [run_of_turn taken]
  rfl

/-- A header that is too long, or announces too much, is answered by an error. -/
theorem Prepared.within_of_answered (prepared : connection.Prepared settings .empty)
    (waits : connection.state = .awaiting)
    (arrives : connection.reader.unread = Frame.encode ⟨.message, head⟩ ++ stream)
    (counted : head.length < UInt32.size)
    (read : Message.ofPayload head = .ok (.documents header))
    (member : reply ∈ (connection.run now workers).replies) (spoken : reply.kind ≠ .error) :
    head.length ≤ settings.maxFrame ∧
      header.check settings.maxItems settings.maxStreams = .ok () := by
  have within : head.length ≤ settings.maxFrame := by
    by_contra long
    refine spoken (run_of_unreadMessage waits (fun message next found => long ?_) member)
    obtain ⟨other, rest, same, short, otherCounted, -⟩ := WireReader.readMessage_eq_done_iff.mp found
    rw [arrives] at same
    obtain ⟨sameFrame, -⟩ := Frame.encode_append_inj counted otherCounted same
    obtain rfl : head = other := congrArg Frame.payload sameFrame
    exact prepared.maxFrame ▸ short
  refine ⟨within, ?_⟩
  cases checked : header.check settings.maxItems settings.maxStreams with
  | ok => rfl
  | error cause =>
      obtain ⟨opening, ready, -, -, -, taken⟩ :=
        prepared.turn?_header waits arrives within counted read now workers
      rw [ready.expect_eq, checked] at taken
      exact absurd (run_of_failing taken member) spoken

/-- A connection that has read all of a batch, and has nothing else to read. -/
structure Loaded (settings : ReplicationSettings) (source : String) (routing : Routing)
    (body : BatchBody) (loaded : Connection) : Prop where
  prepared : loaded.Prepared settings .filling
  spooled : loaded.reader.spool.content = body.payloads.flatMap (·.2)
  unread : loaded.reader.unread = []
  source : loaded.source = source
  routing : loaded.queue.routing = routing

theorem Opened.turn (opened : Opened settings source routing header body.encode filling)
    (follows : body.Follows header settings.maxFrame settings.maxAttachment) (now : Elapsed)
    (workers : Workers) :
    ∃ loaded, Loaded settings source routing body loaded ∧ filling.turn? now workers =
      some (loaded.apply now header ⟨body.changes, Spool.regions 0 body.payloads⟩ workers) := by
  obtain ⟨waits, prepared, unread, source, routing⟩ := opened
  rw [← prepared.maxFrame, ← prepared.maxAttachment] at follows
  have found := WireReader.readBatch_eq_done_iff.mpr
    ⟨body, [], unread.trans (List.append_nil _).symm, follows, rfl, rfl⟩
  let loaded : Connection := { filling with reader := { filling.reader with
    spool := ⟨body.payloads.flatMap (·.2)⟩, unread := [] } }
  refine ⟨loaded, ⟨⟨prepared.configured, prepared.maxFrame, prepared.maxAttachment,
    prepared.queue⟩, rfl, rfl, source, routing⟩, ?_⟩
  simp only [turn?, waits, found, loaded]

/-- A batch with a part that is too long is answered by an error. -/
theorem Opened.follows_of_answered (opened : Opened settings source routing header body.encode filling)
    (follows : body.Follows header frameLimit limit)
    (member : reply ∈ (filling.run now workers).replies) (spoken : reply.kind ≠ .error) :
    body.Follows header settings.maxFrame settings.maxAttachment := by
  by_contra beyond
  refine spoken (run_of_unreadBatch opened.waits (fun batch next found => beyond ?_) member)
  obtain ⟨other, rest, same, within, -, -⟩ := WireReader.readBatch_eq_done_iff.mp found
  rw [opened.unread, ← List.append_nil body.encode] at same
  obtain ⟨rfl, -⟩ := BatchBody.encode_append_inj follows within same
  rwa [opened.prepared.maxFrame, opened.prepared.maxAttachment] at within

/-- What a batch comes to once it was read is up to what it holds, and to the partitions. -/
theorem Prepared.dispatch_eq (prepared : loaded.Prepared settings .filling)
    (spooled : loaded.reader.spool.content = body.payloads.flatMap (·.2)) (header : BatchHeader)
    (workers : Workers) :
    loaded.dispatch header ⟨body.changes, Spool.regions 0 body.payloads⟩ workers =
      (body.slices? loaded.queue.routing).map fun items =>
        let (barrier, next) := workers.dispatch loaded.source header.lastEtag
          (slicesFor loaded.queue.routing.partitionCount items)
          (.arm loaded.queue.routing.partitionCount)
        (barrier, .create loaded.queue.routing, next) := by
  have payloads := @Spool.load_regions loaded.reader body.payloads [] [] (by simpa using spooled)
  rw [List.length_nil] at payloads
  simp only [Connection.dispatch, payloads, Except.ok_bind, BatchBody.slices?]
  rw [congrArg (BatchQueue.fill _ _) prepared.queue]
  cases fills : BatchQueue.fill (body.changes.map .change) body.payloads
      { BatchQueue.create loaded.queue.routing with state := .filling } with
  | error fault => rfl
  | ok filled =>
      obtain ⟨middle, -, pushed, copied⟩ := BatchQueue.adds_fill fills
      have shaped := BatchQueue.Shaped.fill (BatchQueue.shaped_create _ .filling) fills
      have state : filled.state = .filling := copied.state.trans pushed.state
      obtain ⟨slices, emptied, last, handed, finishes⟩ : ∃ slices emptied last,
          filled.handOut = .ok (slices, emptied) ∧ emptied.finish = .ok last := by
        simp only [BatchQueue.handOut, BatchQueue.require, state, if_true, Except.ok_bind]
        exact ⟨_, _, _, rfl, rfl⟩
      obtain rfl := shaped.finish handed finishes
      obtain rfl := BatchQueue.handOut_eq handed
      simp only [handed, finishes, Except.ok_bind, shaped.pending, slicesFor, List.length_map,
        List.length_range]
      rfl

theorem Prepared.apply_eq (prepared : loaded.Prepared settings .filling)
    (spooled : loaded.reader.spool.content = body.payloads.flatMap (·.2)) (now : Elapsed)
    (header : BatchHeader) (workers : Workers) :
    loaded.apply now header ⟨body.changes, Spool.regions 0 body.payloads⟩ workers =
      let received := { loaded with stats := { loaded.stats with
        itemsReceived := loaded.stats.itemsReceived + body.changes.length } }
      let drained := { received with queue := .create loaded.queue.routing }
      match body.slices? loaded.queue.routing with
      | .error fault =>
        ⟨(received.fail "Documents" fault).1, workers, (received.fail "Documents" fault).2⟩
      | .ok items =>
        match workers.distribute loaded.source header.lastEtag loaded.queue.routing.partitionCount
          items with
        | (.error fault, next) =>
          ⟨(drained.fail "Documents" fault).1, next, (drained.fail "Documents" fault).2⟩
        | (.ok outcome, next) =>
          ⟨(drained.conclude now header outcome).1, next, (drained.conclude now header outcome).2⟩ := by
  have counted (stats : ConnectionStats) : Prepared settings .filling { loaded with stats := stats } :=
    ⟨prepared.configured, prepared.maxFrame, prepared.maxAttachment, prepared.queue⟩
  have dispatched (stats : ConnectionStats) := (counted stats).dispatch_eq spooled header workers
  simp only [Connection.apply, dispatched, Workers.distribute]
  cases body.slices? loaded.queue.routing with
  | error fault => rfl
  | ok items =>
      simp only [Except.map_ok]
      cases BatchOutcome.ofOutcomes _ <;> rfl

/-- A connection that waits for a message and has nothing left to read. -/
structure Idle (settings : ReplicationSettings) (connection : Connection) : Prop where
  waits : connection.state = .awaiting
  prepared : connection.Prepared settings .empty
  unread : connection.reader.unread = []

theorem idle_start {source : String}
    (started : start settings source workers now = .ok connection) :
    connection.Idle settings ∧ connection.source = source ∧
      Routing.among workers.partitionCount = .ok connection.queue.routing := by
  have ready := ready_start started
  obtain ⟨routing, among, same⟩ := Except.bind_eq_ok_iff.mp started
  cases same
  exact ⟨⟨rfl, ready.of_awaiting rfl, rfl⟩, rfl, among⟩

theorem Idle.rests (idle : connection.Idle settings) (now : Elapsed) (workers : Workers) :
    connection.turn? now workers = none := by
  simp only [turn?, idle.waits, WireReader.readMessage, WireReader.readFrame, idle.unread]
  rfl

/-- The connection has answered a batch, and left the rest to the workers. -/
structure Answers (settings : ReplicationSettings) (source : String) (routing : Routing)
    (lastEtag : Int64) (items : Nat → List Item) (outcome : BatchOutcome) (workers : Workers)
    (progress : Progress) : Prop where
  workers : progress.workers =
    (workers.distribute source lastEtag routing.partitionCount items).2
  replies : progress.replies = [outcome.reply settings lastEtag]
  idle : progress.connection.Idle settings
  source : progress.connection.source = source
  routing : progress.connection.queue.routing = routing

theorem Loaded.apply (ready : loaded.Loaded settings source routing body)
    (sliced : body.slices? routing = .ok items)
    (settled : (workers.distribute source header.lastEtag routing.partitionCount items).1 =
      .ok outcome) (now : Elapsed) :
    Answers settings source routing header.lastEtag items outcome workers
      (loaded.apply now header ⟨body.changes, Spool.regions 0 body.payloads⟩ workers).progress := by
  obtain ⟨prepared, spooled, unread, rfl, rfl⟩ := ready
  obtain ⟨next, both⟩ : ∃ next, workers.distribute loaded.source header.lastEtag
      loaded.queue.routing.partitionCount items = (.ok outcome, next) := ⟨_, Prod.ext settled rfl⟩
  rw [prepared.apply_eq spooled]
  simp only [sliced, both, Turn.progress]
  have workers := (congrArg Prod.snd both).symm
  cases outcome with
  | applied total =>
      refine ⟨workers, ?_, ⟨rfl, ⟨prepared.configured, prepared.maxFrame, prepared.maxAttachment,
        rfl⟩, unread⟩, rfl, rfl⟩
      simp only [conclude, accept, await, prepared.configured]
      rfl
  | attachmentsMissing reason =>
      exact ⟨workers, rfl, ⟨rfl, ⟨prepared.configured, prepared.maxFrame, prepared.maxAttachment,
        rfl⟩, unread⟩, rfl, rfl⟩

theorem Loaded.settled_of_answered (ready : loaded.Loaded settings source routing body)
    (member : reply ∈ ((loaded.apply now header ⟨body.changes, Spool.regions 0 body.payloads⟩
      workers).progress.andThen (run now)).replies)
    (spoken : reply.kind ≠ .error) :
    ∃ items outcome, body.slices? routing = .ok items ∧
      (workers.distribute source header.lastEtag routing.partitionCount items).1 =
        .ok outcome := by
  obtain ⟨prepared, spooled, -, rfl, rfl⟩ := ready
  rw [prepared.apply_eq spooled] at member
  cases sliced : body.slices? loaded.queue.routing with
  | error fault =>
      rw [sliced] at member
      exact absurd (kind_of_fail member) spoken
  | ok items =>
      rw [sliced] at member
      refine ⟨items, ?_⟩
      cases settled : workers.distribute loaded.source header.lastEtag
          loaded.queue.routing.partitionCount items with
      | mk result next =>
          cases result with
          | ok outcome => exact ⟨outcome, rfl, rfl⟩
          | error fault =>
              simp only [settled] at member
              exact absurd (kind_of_fail member) spoken

theorem Idle.receive (idle : connection.Idle settings) (bytes : Bytes) :
    Prepared settings .empty { connection with reader := connection.reader.receive bytes } ∧
      (connection.reader.receive bytes).unread = bytes := by
  obtain ⟨waits, prepared, unread⟩ := idle
  refine ⟨⟨prepared.configured, prepared.maxFrame, prepared.maxAttachment, prepared.queue⟩, ?_⟩
  rw [WireReader.receive, unread, List.nil_append]

/-- A batch that the settings allow is loaded, and then all is up to the partitions. -/
theorem Idle.receive_admitted (idle : connection.Idle settings)
    (admitted : body.Admitted settings lastEtag bytes) (now : Elapsed) (workers : Workers) :
    ∃ loaded, Loaded settings connection.source connection.queue.routing body loaded ∧
      connection.receive now bytes workers = (loaded.apply now (body.header lastEtag)
        ⟨body.changes, Spool.regions 0 body.payloads⟩ workers).progress.andThen (run now) := by
  obtain ⟨checked, head, rfl, within, counted, read, follows⟩ := admitted
  obtain ⟨prepared, arrives⟩ := idle.receive (Frame.encode ⟨.message, head⟩ ++ body.encode)
  obtain ⟨filling, opened, same⟩ :=
    prepared.run_header idle.waits arrives within counted read checked now workers
  obtain ⟨loaded, ready, taken⟩ := opened.turn follows now workers
  refine ⟨loaded, ready, ?_⟩
  rw [Connection.receive, same, run_of_turn taken]
  rfl

theorem Idle.answers (idle : connection.Idle settings)
    (admitted : body.Admitted settings lastEtag bytes)
    (sliced : body.slices? connection.queue.routing = .ok items)
    (settled : (workers.distribute connection.source lastEtag
      connection.queue.routing.partitionCount items).1 = .ok outcome) (now : Elapsed) :
    Answers settings connection.source connection.queue.routing lastEtag items outcome workers
      (connection.receive now bytes workers) := by
  obtain ⟨loaded, ready, received⟩ := idle.receive_admitted admitted now workers
  have answers := @Loaded.apply _ (body.header lastEtag) _ _ _ _ _ _ _ ready sliced settled now
  rw [received, Progress.andThen, run_of_rest (answers.idle.rests now _)]
  simp only [List.append_nil]
  exact answers

/-- A reply that is no error tells that the batch was allowed, could be routed, and had no fault in
any partition but missing attachments. -/
theorem Idle.settled_of_answered (idle : connection.Idle settings)
    (sent : body.Sent frameLimit limit lastEtag bytes)
    (member : reply ∈ (connection.receive now bytes workers).replies) (spoken : reply.kind ≠ .error) :
    body.Admitted settings lastEtag bytes ∧
      ∃ items outcome, body.slices? connection.queue.routing = .ok items ∧
        (workers.distribute connection.source lastEtag connection.queue.routing.partitionCount
          items).1 = .ok outcome := by
  have admitted : body.Admitted settings lastEtag bytes := by
    obtain ⟨head, rfl, -, counted, read, follows⟩ := sent
    obtain ⟨prepared, arrives⟩ := idle.receive (Frame.encode ⟨.message, head⟩ ++ body.encode)
    obtain ⟨within, checked⟩ :=
      prepared.within_of_answered idle.waits arrives counted read member spoken
    obtain ⟨filling, opened, same⟩ :=
      prepared.run_header idle.waits arrives within counted read checked now workers
    rw [Connection.receive, same] at member
    exact ⟨checked, head, rfl, within, counted, read,
      opened.follows_of_answered follows member spoken⟩
  obtain ⟨loaded, ready, received⟩ := idle.receive_admitted admitted now workers
  rw [received] at member
  obtain ⟨items, outcome, sliced, settled⟩ := ready.settled_of_answered member spoken
  exact ⟨admitted, items, outcome, sliced, settled⟩

end Connection

end DocumentReplication
