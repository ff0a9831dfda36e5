import DocumentReplication.Proofs.Connection.Exchange
import DocumentReplication.Proofs.Connection.Rejection
import DocumentReplication.Proofs.Connection.Pieces

/-!
Conversations. Whatever octets a sender writes before it closes its side, they fall into messages that
are answered one by one, and into what ends the connection. So every conversation ends with a fault;
the replies tell what was accepted on the way, and the counters of the connection how often.
-/

namespace DocumentReplication

variable {settings : ReplicationSettings} {source : String} {routing : Routing}

/-- A message that did not end the connection, with what came of it. -/
inductive Exchange where
  | poll
  | heartbeat (lastEtag : Int64)
  | batch (header : BatchHeader) (outcome : BatchOutcome)

namespace Exchange

/-- The etag of an accepted message, unless it is a poll, which has none. -/
def ownEtag? : Exchange → Option Int64
  | poll => none
  | heartbeat lastEtag => some lastEtag
  | batch header (.applied _) => some header.lastEtag
  | batch _ (.attachmentsMissing _) => none

def isGreeting : Exchange → Bool
  | batch .. => false
  | _ => true

def isApplied : Exchange → Bool
  | batch _ (.applied _) => true
  | _ => false

def isRefused : Exchange → Bool
  | batch _ (.attachmentsMissing _) => true
  | _ => false

/-- The reply to a message. Only a poll is answered by the etag that was accepted before. -/
def reply (settings : ReplicationSettings) (before : Int64) : Exchange → Reply
  | poll => .accepted "Notify" before settings.nodeTag
  | heartbeat lastEtag => .accepted "Heartbeat" lastEtag settings.nodeTag
  | batch header outcome => outcome.reply settings header.lastEtag

/-- The etag of the latest accepted message that has one. -/
def lastAccepted (start : Int64) (exchanges : List Exchange) : Int64 :=
  (exchanges.reverse.findSome? ownEtag?).getD start

def replies (settings : ReplicationSettings) (start : Int64) (exchanges : List Exchange) :
    List Reply :=
  exchanges.mapIdx fun index exchange =>
    exchange.reply settings (lastAccepted start (exchanges.take index))

theorem lastAccepted_cons (start : Int64) (first : Exchange) (others : List Exchange) :
    lastAccepted start (first :: others) = lastAccepted (first.ownEtag?.getD start) others := by
  rw [lastAccepted, lastAccepted, List.reverse_cons, List.findSome?_append]
  cases others.reverse.findSome? ownEtag? with
  | some later => rfl
  | none => cases own : first.ownEtag? <;> simp [own]

theorem replies_cons (settings : ReplicationSettings) (start : Int64) (first : Exchange)
    (others : List Exchange) :
    replies settings start (first :: others) =
      first.reply settings start :: replies settings (first.ownEtag?.getD start) others := by
  simp only [replies, List.mapIdx_cons, List.take_zero, List.take_succ_cons, lastAccepted_cons]
  rfl

example (header : BatchHeader) (reason : Fault) :
    (replies settings 0 [.poll, .heartbeat 7, .batch header (.attachmentsMissing reason), .poll]).map
      (·.lastEtagAccepted) = [0, 7, -1, 7] := rfl

end Exchange

/-- What a connection ended with, and the batch that it was about if it was about one. -/
structure Ending where
  header : Option BatchHeader
  fault : Fault

/-- Nobody is told about a fault of the network. -/
def Ending.reply (ending : Ending) : Option Reply :=
  if ending.fault.isNetworkFault then none
  else some (.failed (ending.header.elim Message.unknownType fun header =>
    (Message.documents header).type) ending.fault.message)

/-- Octets that begin with the header of a batch that the settings allow. -/
structure BatchHeader.Opens (settings : ReplicationSettings) (header : BatchHeader)
    (bytes rest : Bytes) : Prop where
  heads : Message.Heads settings.maxFrame (.documents header) bytes rest
  checked : header.check settings.maxItems settings.maxStreams = .ok ()

/-- A reader with the limits of the settings that has these octets left to read. -/
structure WireReader.Faces (settings : ReplicationSettings) (bytes : Bytes) (reader : WireReader) :
    Prop where
  maxFrame : reader.maxFrame = settings.maxFrame
  maxAttachment : reader.maxAttachment = settings.maxAttachment
  unread : reader.unread = bytes

/-- The octets that a connection ends with, and what it leaves of the workers. -/
inductive Ends (settings : ReplicationSettings) (source : String) (routing : Routing)
    (workers : Workers) (bytes : Bytes) : Ending → Workers → Prop
  /-- No message can be read, be it that there are no octets left. -/
  | unread {reader : WireReader} {fault : Fault} (faces : reader.Faces settings bytes)
      (fails : reader.readMessage.settle.1 = .error fault) :
      Ends settings source routing workers bytes ⟨none, fault⟩ workers
  | oversized {header : BatchHeader} {rest : Bytes} {cause : WireFault}
      (heads : Message.Heads settings.maxFrame (.documents header) bytes rest)
      (beyond : header.check settings.maxItems settings.maxStreams = .error cause) :
      Ends settings source routing workers bytes ⟨some header, .wire cause⟩ workers
  | broken {header : BatchHeader} {rest : Bytes} {reader : WireReader} {fault : Fault}
      (opens : header.Opens settings bytes rest) (faces : reader.Faces settings rest)
      (fails : (reader.readBatch header).settle.1 = .error fault) :
      Ends settings source routing workers bytes ⟨some header, fault⟩ workers
  | unroutable {header : BatchHeader} {body : BatchBody} {rest : Bytes} {fault : Fault}
      (opens : header.Opens settings bytes (body.encode ++ rest))
      (follows : body.Follows header settings.maxFrame settings.maxAttachment)
      (sliced : body.slices? routing = .error fault) :
      Ends settings source routing workers bytes ⟨some header, fault⟩ workers
  | failed {header : BatchHeader} {body : BatchBody} {rest : Bytes} {items : Nat → List Item}
      {fault : Fault} {next : Workers}
      (opens : header.Opens settings bytes (body.encode ++ rest))
      (follows : body.Follows header settings.maxFrame settings.maxAttachment)
      (sliced : body.slices? routing = .ok items)
      (settled : workers.distribute source header.lastEtag routing.partitionCount items =
        (.error fault, next)) :
      Ends settings source routing workers bytes ⟨some header, fault⟩ next

/-- Octets as messages that are handled one after another, and an end. -/
inductive Dialogue (settings : ReplicationSettings) (source : String) (routing : Routing) :
    Workers → Bytes → List Exchange → Ending → Workers → Prop
  | done {workers last : Workers} {bytes : Bytes} {ending : Ending}
      (ends : Ends settings source routing workers bytes ending last) :
      Dialogue settings source routing workers bytes [] ending last
  | poll {workers last : Workers} {bytes rest : Bytes} {exchanges : List Exchange} {ending : Ending}
      (heads : Message.Heads settings.maxFrame .poll bytes rest)
      (later : Dialogue settings source routing workers rest exchanges ending last) :
      Dialogue settings source routing workers bytes (.poll :: exchanges) ending last
  | heartbeat {workers last : Workers} {bytes rest : Bytes} {exchanges : List Exchange}
      {ending : Ending} {lastEtag : Int64}
      (heads : Message.Heads settings.maxFrame (.heartbeat lastEtag) bytes rest)
      (later : Dialogue settings source routing workers rest exchanges ending last) :
      Dialogue settings source routing workers bytes (.heartbeat lastEtag :: exchanges) ending last
  | batch {workers next last : Workers} {bytes rest : Bytes} {exchanges : List Exchange}
      {ending : Ending} {header : BatchHeader} {body : BatchBody} {items : Nat → List Item}
      {outcome : BatchOutcome}
      (opens : header.Opens settings bytes (body.encode ++ rest))
      (follows : body.Follows header settings.maxFrame settings.maxAttachment)
      (sliced : body.slices? routing = .ok items)
      (settled : workers.distribute source header.lastEtag routing.partitionCount items =
        (.ok outcome, next))
      (later : Dialogue settings source routing next rest exchanges ending last) :
      Dialogue settings source routing workers bytes (.batch header outcome :: exchanges) ending last

namespace Connection

variable {connection next : Connection} {workers last : Workers} {now : Elapsed}
  {exchange : Exchange} {exchanges : List Exchange} {ending : Ending} {progress : Progress}

theorem finish_of_turn {turn : Turn} (taken : connection.turn? now workers = some turn) :
    connection.finish now workers = turn.progress.andThen (finish now) := by
  simp only [finish_eq, run_of_turn taken, Progress.andThen, Turn.progress, List.append_assoc]

theorem finish_of_closed {outcome : Except Fault Unit} (closed : connection.state = .closed outcome) :
    connection.finish now workers = ⟨connection, workers, []⟩ := by
  simp only [finish_eq, run_of_closed closed, Progress.andThen, starve_of_closed closed,
    List.append_nil]

/-- What comes of a connection that fails. -/
def failing (messageType : String) (fault : Fault) (workers : Workers) (connection : Connection) :
    Progress :=
  ⟨(connection.fail messageType fault).1, workers, (connection.fail messageType fault).2.toList⟩

theorem finish_of_failing {failed : Connection} {messageType : String} {fault : Fault}
    (taken : connection.turn? now workers =
      some ⟨(failed.fail messageType fault).1, last, (failed.fail messageType fault).2⟩) :
    connection.finish now workers = failed.failing messageType fault last := by
  rw [finish_of_turn taken, Progress.andThen]
  have closed := @finish_of_closed (failed.fail messageType fault).1 last now _ rfl
  simp only [Turn.progress, closed, List.append_nil]
  rfl

/-- A message that cannot be read ends a connection, whether more octets could help or not. -/
theorem finish_of_unread {reader : WireReader} {fault : Fault} (waits : connection.state = .awaiting)
    (fails : connection.reader.readMessage.settle = (.error fault, reader)) :
    connection.finish now workers =
      { connection with reader := reader }.failing Message.unknownType fault workers := by
  cases found : connection.reader.readMessage with
  | done message next => simp [found, Intake.settle] at fails
  | refused cause next =>
      rw [found] at fails
      cases fails
      exact finish_of_failing (by simp only [turn?, waits, found])
  | starved cause next =>
      rw [found] at fails
      cases fails
      have rests : connection.turn? now workers = none := by simp only [turn?, waits, found]
      simp only [finish_eq, run_of_rest rests, Progress.andThen, Connection.starve, starvation?,
        waits, found, List.nil_append]
      rfl

theorem finish_of_broken {header : BatchHeader} {reader : WireReader} {fault : Fault}
    (waits : connection.state = .receiving header)
    (fails : (connection.reader.readBatch header).settle = (.error fault, reader)) :
    connection.finish now workers =
      { connection with reader := reader }.failing "Documents" fault workers := by
  cases found : connection.reader.readBatch header with
  | done batch next => simp [found, Intake.settle] at fails
  | refused cause next =>
      rw [found] at fails
      cases fails
      exact finish_of_failing (by simp only [turn?, waits, found]; rfl)
  | starved cause next =>
      rw [found] at fails
      cases fails
      have rests : connection.turn? now workers = none := by simp only [turn?, waits, found]
      simp only [finish_eq, run_of_rest rests, Progress.andThen, Connection.starve, starvation?,
        waits, found, List.nil_append]
      rfl

/-- A connection has been through a conversation that it began as another one. -/
structure Tells (settings : ReplicationSettings) (connection : Connection)
    (exchanges : List Exchange) (ending : Ending) (last : Workers) (progress : Progress) : Prop where
  replies : progress.replies =
    Exchange.replies settings connection.lastEtag exchanges ++ ending.reply.toList
  closed : progress.connection.state = .closed (.error ending.fault)
  workers : progress.workers = last
  messages : progress.connection.stats.messages =
    connection.stats.messages + exchanges.length + ending.header.toList.length
  heartbeats : progress.connection.stats.heartbeats =
    connection.stats.heartbeats + exchanges.countP Exchange.isGreeting
  batches : progress.connection.stats.batches =
    connection.stats.batches + exchanges.countP Exchange.isApplied
  nacks : progress.connection.stats.nacks =
    connection.stats.nacks + exchanges.countP Exchange.isRefused
  errors : progress.connection.stats.errors = connection.stats.errors + 1

/-- A connection that answered one message, and waits for the next one. -/
structure Answered (connection : Connection) (exchange : Exchange) (next : Connection) : Prop where
  etag : next.lastEtag = exchange.ownEtag?.getD connection.lastEtag
  messages : next.stats.messages = connection.stats.messages + 1
  heartbeats : next.stats.heartbeats =
    connection.stats.heartbeats + [exchange].countP Exchange.isGreeting
  batches : next.stats.batches = connection.stats.batches + [exchange].countP Exchange.isApplied
  nacks : next.stats.nacks = connection.stats.nacks + [exchange].countP Exchange.isRefused
  errors : next.stats.errors = connection.stats.errors

theorem Tells.cons (tells : Tells settings next exchanges ending last progress)
    (answered : Answered connection exchange next) :
    Tells settings connection (exchange :: exchanges) ending last { progress with
      replies := exchange.reply settings connection.lastEtag :: progress.replies } := by
  have split (wanted : Exchange → Bool) : (exchange :: exchanges).countP wanted =
      [exchange].countP wanted + exchanges.countP wanted := @List.countP_append _ _ [exchange] _
  refine ⟨?_, tells.closed, tells.workers, ?_, ?_, ?_, ?_, ?_⟩
  · rw [tells.replies, answered.etag, Exchange.replies_cons, List.cons_append]
  · rw [tells.messages, answered.messages, List.length_cons]
    omega
  · rw [tells.heartbeats, answered.heartbeats, split, Nat.add_assoc]
  · rw [tells.batches, answered.batches, split, Nat.add_assoc]
  · rw [tells.nacks, answered.nacks, split, Nat.add_assoc]
  · rw [tells.errors, answered.errors]

theorem Tells.of_failing {failed : Connection} {header : Option BatchHeader} {fault : Fault}
    {received : Nat} (stats : failed.stats = { connection.stats with
      messages := connection.stats.messages + header.toList.length, itemsReceived := received }) :
    Tells settings connection [] ⟨header, fault⟩ last (failed.failing
      (header.elim Message.unknownType fun header => (Message.documents header).type) fault last) := by
  refine ⟨rfl, rfl, rfl, ?_, ?_, ?_, ?_, ?_⟩ <;>
    simp only [failing, fail, close, stats, List.length_nil, List.countP_nil, Nat.add_zero]

/-- A connection handles a message, and what it does then is as if the rest were a conversation of its
own. -/
structure Handles (settings : ReplicationSettings) (now : Elapsed) (connection : Connection)
    (workers : Workers) (exchange : Exchange) (next : Connection) (left : Workers) : Prop where
  prepared : next.Prepared settings .empty
  waits : next.state = .awaiting
  source : next.source = connection.source
  routing : next.queue.routing = connection.queue.routing
  lighter : next.weight < connection.weight
  answered : Answered connection exchange next
  continues : ∀ {exchanges ending last}, Dialogue settings connection.source connection.queue.routing
      left next.reader.unread exchanges ending last →
    Dialogue settings connection.source connection.queue.routing workers connection.reader.unread
      (exchange :: exchanges) ending last
  finish : connection.finish now workers = { next.finish now left with
    replies := exchange.reply settings connection.lastEtag :: (next.finish now left).replies }

theorem finish_of_answer {reply : Reply}
    (taken : connection.turn? now workers = some ⟨next, last, some reply⟩) :
    connection.finish now workers =
      { next.finish now last with replies := reply :: (next.finish now last).replies } := by
  rw [finish_of_turn taken]
  rfl

theorem finish_of_silence (taken : connection.turn? now workers = some ⟨next, last, none⟩) :
    connection.finish now workers = next.finish now last := by
  rw [finish_of_turn taken]
  rfl

variable {rest : Bytes} {header : BatchHeader}

theorem Prepared.handles_poll (prepared : connection.Prepared settings .empty)
    (waits : connection.state = .awaiting)
    (heads : Message.Heads settings.maxFrame .poll connection.reader.unread rest) (now : Elapsed)
    (workers : Workers) : ∃ next, Handles settings now connection workers .poll next workers := by
  have taken := prepared.turn?_message waits heads now workers
  obtain ⟨rfl, maxFrame, maxAttachment, queue⟩ := prepared
  exact ⟨((connection.past rest).handle now .poll).1, ⟨rfl, maxFrame, maxAttachment, queue⟩, rfl,
    rfl, rfl, weight_lt taken, ⟨rfl, rfl, rfl, rfl, rfl, rfl⟩, .poll heads, finish_of_answer taken⟩

theorem Prepared.handles_heartbeat {lastEtag : Int64}
    (prepared : connection.Prepared settings .empty) (waits : connection.state = .awaiting)
    (heads : Message.Heads settings.maxFrame (.heartbeat lastEtag) connection.reader.unread rest)
    (now : Elapsed) (workers : Workers) :
    ∃ next, Handles settings now connection workers (.heartbeat lastEtag) next workers := by
  have taken := prepared.turn?_message waits heads now workers
  obtain ⟨rfl, maxFrame, maxAttachment, queue⟩ := prepared
  exact ⟨((connection.past rest).handle now (.heartbeat lastEtag)).1,
    ⟨rfl, maxFrame, maxAttachment, queue⟩, rfl, rfl, rfl, weight_lt taken,
    ⟨rfl, rfl, rfl, rfl, rfl, rfl⟩, .heartbeat heads, finish_of_answer taken⟩

/-- The connection after it has read the header of a batch. -/
def announced (header : BatchHeader) (rest : Bytes) (connection : Connection) : Connection :=
  { connection with
    reader := { connection.reader with unread := rest }
    queue := { connection.queue with state := .filling }
    state := .receiving header
    stats := { connection.stats with messages := connection.stats.messages + 1 } }

theorem Prepared.announced (prepared : connection.Prepared settings .empty) (header : BatchHeader)
    (rest : Bytes) : (connection.announced header rest).Prepared settings .filling :=
  ⟨prepared.configured, prepared.maxFrame, prepared.maxAttachment,
    congrArg (fun queue : BatchQueue => { queue with state := .filling }) prepared.queue⟩

/-- The connection ends with what it has left to read. -/
def Finishes (settings : ReplicationSettings) (now : Elapsed) (connection : Connection)
    (workers : Workers) : Prop :=
  ∃ ending last,
    Ends settings connection.source connection.queue.routing workers connection.reader.unread ending
        last ∧
      Tells settings connection [] ending last (connection.finish now workers)

theorem Finishes.of_failing {failed : Connection} {fault : Fault} {received : Nat}
    (header : Option BatchHeader)
    (finishes : connection.finish now workers = failed.failing
      (header.elim Message.unknownType fun header => (Message.documents header).type) fault last)
    (stats : failed.stats = { connection.stats with
      messages := connection.stats.messages + header.toList.length, itemsReceived := received })
    (ends : Ends settings connection.source connection.queue.routing workers
      connection.reader.unread ⟨header, fault⟩ last) :
    connection.Finishes settings now workers :=
  ⟨_, _, ends, finishes ▸ .of_failing stats⟩

theorem conclude_frame (now : Elapsed) (header : BatchHeader) (outcome : BatchOutcome)
    (connection : Connection) :
    (connection.conclude now header outcome).2 =
        some (outcome.reply connection.settings header.lastEtag) ∧
      (connection.conclude now header outcome).1.state = .awaiting ∧
      (connection.conclude now header outcome).1.source = connection.source ∧
      (connection.conclude now header outcome).1.settings = connection.settings ∧
      (connection.conclude now header outcome).1.reader = connection.reader ∧
      (connection.conclude now header outcome).1.queue = connection.queue := by
  cases outcome <;> exact ⟨rfl, rfl, rfl, rfl, rfl, rfl⟩

theorem Answered.of_conclude {drained : Connection} {received : Nat} {outcome : BatchOutcome}
    (etag : drained.lastEtag = connection.lastEtag)
    (stats : drained.stats = { connection.stats with
      messages := connection.stats.messages + 1, itemsReceived := received }) :
    Answered connection (.batch header outcome) (drained.conclude now header outcome).1 := by
  cases outcome with
  | applied total =>
      refine ⟨rfl, ?_, ?_, ?_, ?_, ?_⟩ <;> simp only [conclude, await, stats] <;> rfl
  | attachmentsMissing reason =>
      refine ⟨etag, ?_, ?_, ?_, ?_, ?_⟩ <;> simp only [conclude, await, stats] <;> rfl

/-- The connection after it has read a whole batch. -/
def loaded (header : BatchHeader) (body : BatchBody) (rest : Bytes) (connection : Connection) :
    Connection :=
  { connection.announced header rest with
    reader := { connection.reader with spool := ⟨body.payloads.flatMap (·.2)⟩, unread := rest } }

/-- The connection after it has handed a batch over to the partitions. -/
def drained (header : BatchHeader) (body : BatchBody) (rest : Bytes) (connection : Connection) :
    Connection :=
  { connection.loaded header body rest with
    queue := .create connection.queue.routing
    stats := { connection.stats with
      messages := connection.stats.messages + 1
      itemsReceived := connection.stats.itemsReceived + body.changes.length } }

/-- A batch that was settled is answered, and leaves the connection as ready as it was. -/
theorem Prepared.handles_settled {body : BatchBody} {items : Nat → List Item}
    {outcome : BatchOutcome} {left : Workers} (prepared : connection.Prepared settings .empty)
    (opens : header.Opens settings connection.reader.unread (body.encode ++ rest))
    (follows : body.Follows header settings.maxFrame settings.maxAttachment)
    (sliced : body.slices? connection.queue.routing = .ok items)
    (settled : workers.distribute connection.source header.lastEtag
      connection.queue.routing.partitionCount items = (.ok outcome, left))
    (taken : connection.turn? now workers =
      some ⟨connection.announced header (body.encode ++ rest), workers, none⟩)
    (applied : (connection.announced header (body.encode ++ rest)).turn? now workers =
      some ⟨((connection.drained header body rest).conclude now header outcome).1, left,
        ((connection.drained header body rest).conclude now header outcome).2⟩) :
    ∃ next, Handles settings now connection workers (.batch header outcome) next left := by
  obtain rfl := prepared.configured
  obtain ⟨replied, waits, source, configured, reader, queue⟩ :=
    conclude_frame now header outcome (connection.drained header body rest)
  have answered := applied.trans (congrArg (fun reply => some (Turn.mk
    ((connection.drained header body rest).conclude now header outcome).1 left reply)) replied)
  have lighter := Nat.lt_trans (weight_lt answered) (weight_lt taken)
  refine ⟨_, ⟨configured, ?_, ?_, ?_⟩, waits, source, ?_, lighter, .of_conclude rfl rfl, ?_,
    (finish_of_silence taken).trans (finish_of_answer answered)⟩
  · rw [reader]
    exact prepared.maxFrame
  · rw [reader]
    exact prepared.maxAttachment
  · rw [queue]
    rfl
  · rw [queue]
    rfl
  · rw [reader]
    exact .batch opens follows sliced settled

/-- A batch that was read as a whole is answered, or is the end of the connection. -/
theorem Prepared.handles_body {body : BatchBody} (prepared : connection.Prepared settings .empty)
    (opens : header.Opens settings connection.reader.unread (body.encode ++ rest))
    (follows : body.Follows header settings.maxFrame settings.maxAttachment)
    (taken : connection.turn? now workers =
      some ⟨connection.announced header (body.encode ++ rest), workers, none⟩)
    (applied : (connection.announced header (body.encode ++ rest)).turn? now workers =
      some ((connection.loaded header body rest).apply now header
        ⟨body.changes, Spool.regions 0 body.payloads⟩ workers)) :
    connection.Finishes settings now workers ∨
      ∃ outcome next left,
        Handles settings now connection workers (.batch header outcome) next left := by
  have begun := finish_of_silence taken
  have filling := prepared.announced header rest
  have ready : (connection.loaded header body rest).Prepared settings .filling :=
    ⟨filling.configured, filling.maxFrame, filling.maxAttachment, filling.queue⟩
  rw [ready.apply_eq rfl] at applied
  cases sliced : body.slices? connection.queue.routing with
  | error fault =>
      simp only [loaded, Connection.announced, sliced] at applied
      exact .inl (.of_failing (some header) (begun.trans (finish_of_failing applied)) rfl
        (.unroutable opens follows sliced))
  | ok items =>
      cases settled : workers.distribute connection.source header.lastEtag
          connection.queue.routing.partitionCount items with
      | mk result left =>
          simp only [loaded, Connection.announced, sliced, settled] at applied
          cases result with
          | error fault =>
              exact .inl (.of_failing (some header) (begun.trans (finish_of_failing applied)) rfl
                (.failed opens follows sliced settled))
          | ok outcome =>
              obtain ⟨next, handled⟩ :=
                prepared.handles_settled opens follows sliced settled taken applied
              exact .inr ⟨outcome, next, left, handled⟩

theorem Prepared.handles_batch (prepared : connection.Prepared settings .empty)
    (waits : connection.state = .awaiting)
    (heads : Message.Heads settings.maxFrame (.documents header) connection.reader.unread rest)
    (now : Elapsed) (workers : Workers) :
    connection.Finishes settings now workers ∨
      ∃ outcome next left,
        Handles settings now connection workers (.batch header outcome) next left := by
  have taken := prepared.turn?_message waits heads now workers
  have opening (stats : ConnectionStats) : Prepared settings .empty
      { connection.past rest with stats := stats } :=
    ⟨prepared.configured, prepared.maxFrame, prepared.maxAttachment, prepared.queue⟩
  simp only [Connection.handle, (opening _).expect_eq] at taken
  cases checked : header.check settings.maxItems settings.maxStreams with
  | error cause =>
      rw [checked] at taken
      exact .inl (.of_failing (some header) (finish_of_failing taken) rfl
        (.oversized heads checked))
  | ok =>
      rw [checked] at taken
      have begun : connection.turn? now workers =
          some ⟨connection.announced header rest, workers, none⟩ := taken
      have filling := prepared.announced header rest
      cases read : ((connection.announced header rest).reader.readBatch header).settle with
      | mk result reader =>
          cases result with
          | error fault =>
              exact .inl (.of_failing (some header)
                ((finish_of_silence begun).trans (finish_of_broken rfl read)) rfl
                (.broken ⟨heads, checked⟩ ⟨filling.maxFrame, filling.maxAttachment, rfl⟩
                  (congrArg Prod.fst read)))
          | ok batch =>
              have found := Intake.settle_eq_ok_iff.mp read
              obtain ⟨body, more, same, follows, rfl, rfl⟩ :=
                WireReader.readBatch_eq_done_iff.mp found
              obtain rfl : rest = body.encode ++ more := same
              rw [filling.maxFrame, filling.maxAttachment] at follows
              refine prepared.handles_body ⟨heads, checked⟩ follows begun ?_
              simp only [turn?, Connection.announced] at found ⊢
              simp only [found]
              rfl

/-- A connection that waits for a message handles the next one, or ends. -/
theorem Prepared.handles (prepared : connection.Prepared settings .empty)
    (waits : connection.state = .awaiting) (now : Elapsed) (workers : Workers) :
    connection.Finishes settings now workers ∨
      ∃ exchange next left, Handles settings now connection workers exchange next left := by
  cases read : connection.reader.readMessage.settle with
  | mk result reader =>
      cases result with
      | error fault =>
          exact .inl (.of_failing none (finish_of_unread waits read) rfl
            (.unread ⟨prepared.maxFrame, prepared.maxAttachment, rfl⟩ (congrArg Prod.fst read)))
      | ok message =>
          obtain ⟨head, rest, arrives, within, counted, parsed, -⟩ :=
            WireReader.readMessage_eq_done_iff.mp (Intake.settle_eq_ok_iff.mp read)
          have heads : message.Heads settings.maxFrame connection.reader.unread rest :=
            ⟨head, arrives, prepared.maxFrame ▸ within, counted, parsed⟩
          cases message with
          | poll =>
              obtain ⟨next, handled⟩ := prepared.handles_poll waits heads now workers
              exact .inr ⟨_, next, workers, handled⟩
          | heartbeat lastEtag =>
              obtain ⟨next, handled⟩ := prepared.handles_heartbeat waits heads now workers
              exact .inr ⟨_, next, workers, handled⟩
          | documents header =>
              exact (prepared.handles_batch waits heads now workers).imp_right
                fun ⟨_, next, left, handled⟩ => ⟨_, next, left, handled⟩

/-- Whatever a connection has left to read is a conversation. -/
theorem Prepared.tells (prepared : connection.Prepared settings .empty)
    (waits : connection.state = .awaiting) (now : Elapsed) (workers : Workers) :
    ∃ exchanges ending last,
      Dialogue settings connection.source connection.queue.routing workers connection.reader.unread
          exchanges ending last ∧
        Tells settings connection exchanges ending last (connection.finish now workers) := by
  -- On the weight of the connection, which every message makes less.
  generalize weight : connection.weight = measure
  induction measure using Nat.strongRecOn generalizing connection workers with
  | ind measure ih =>
      rcases prepared.handles waits now workers with
        ⟨ending, last, ends, tells⟩ | ⟨exchange, next, left, handled⟩
      · exact ⟨[], ending, last, .done ends, tells⟩
      · obtain ⟨exchanges, ending, last, dialogue, tells⟩ :=
          ih _ (weight ▸ handled.lighter) handled.prepared handled.waits left rfl
        rw [handled.source, handled.routing] at dialogue
        refine ⟨exchange :: exchanges, ending, last, handled.continues dialogue, ?_⟩
        rw [handled.finish]
        exact tells.cons handled.answered

theorem begins (started : start settings source workers now = .ok connection) :
    connection.lastEtag = 0 ∧ connection.stats = ⟨0, 0, 0, 0, 0, 0, 0⟩ := by
  obtain ⟨routing, -, same⟩ := Except.bind_eq_ok_iff.mp started
  cases same
  exact ⟨rfl, rfl⟩

theorem finish_fed_append (now : Elapsed) (first last : Bytes) :
    (fun connection workers => finish now (connection.fed (first ++ last)) workers) =
      fun connection workers => (receive now first connection workers).andThen
        fun connection workers => finish now (connection.fed last) workers := by
  funext connection workers
  have later := run_fed now last (connection.fed first) workers
  simp only [finish_eq, fed_append, later, Progress.andThen, List.append_assoc]
  rfl

end Connection

namespace Exchange

/-- Every message that is handled is a greeting, or a batch that was applied or refused. -/
theorem length_eq (exchanges : List Exchange) :
    exchanges.length = exchanges.countP isGreeting + exchanges.countP isApplied +
      exchanges.countP isRefused := by
  induction exchanges with
  | nil => rfl
  | cons first others ih =>
      have one : 1 = (if first.isGreeting then 1 else 0) + (if first.isApplied then 1 else 0) +
          (if first.isRefused then 1 else 0) := by
        rcases first with _ | _ | ⟨_, _ | _⟩ <;> rfl
      rw [List.length_cons, List.countP_cons, List.countP_cons, List.countP_cons]
      omega

/-- A reply that accepts nothing tells no etag. -/
theorem lastEtagAccepted_of_mem {start : Int64} {exchanges : List Exchange} {reply : Reply}
    (member : reply ∈ replies settings start exchanges) (refuses : reply.kind ≠ .ok) :
    reply.lastEtagAccepted = -1 := by
  obtain ⟨index, within, rfl⟩ := List.mem_mapIdx.mp member
  cases told : exchanges[index] with
  | poll => exact absurd (told ▸ rfl) refuses
  | heartbeat lastEtag => exact absurd (told ▸ rfl) refuses
  | batch header outcome =>
      cases outcome with
      | applied total => exact absurd (told ▸ rfl) refuses
      | attachmentsMissing reason => rfl

theorem countP_replies (settings : ReplicationSettings) (start : Int64) (exchanges : List Exchange) :
    (replies settings start exchanges).countP (·.kind == .ok) =
      exchanges.countP isGreeting + exchanges.countP isApplied := by
  induction exchanges generalizing start with
  | nil => rfl
  | cons first others ih =>
      have one : (if (first.reply settings start).kind == .ok then 1 else 0) =
          (if first.isGreeting then 1 else 0) + (if first.isApplied then 1 else 0) := by
        rcases first with _ | _ | ⟨_, _ | _⟩ <;> rfl
      rw [replies_cons, List.countP_cons, List.countP_cons, List.countP_cons, ih, one]
      omega

end Exchange

theorem Ending.of_reply {ending : Ending} {reply : Reply} (told : ending.reply = some reply) :
    reply.kind = .error ∧ reply.lastEtagAccepted = -1 := by
  unfold Ending.reply at told
  split at told
  · contradiction
  · cases told
    exact ⟨rfl, rfl⟩

/-- What came of a conversation: the replies, and the connection when it is over. -/
structure Conversed (settings : ReplicationSettings) (exchanges : List Exchange) (ending : Ending)
    (replies : List Reply) (connection : Connection) : Prop where
  /-- Every message that was handled is answered, and the fault at the end is told unless the network
  is at fault. -/
  answers : replies = Exchange.replies settings 0 exchanges ++ ending.reply.toList
  refusals : ∀ reply ∈ replies, reply.kind ≠ .ok → reply.lastEtagAccepted = -1
  closed : connection.state = .closed (.error ending.fault)
  errors : connection.stats.errors = 1
  heartbeats : connection.stats.heartbeats = exchanges.countP Exchange.isGreeting
  batches : connection.stats.batches = exchanges.countP Exchange.isApplied
  nacks : connection.stats.nacks = exchanges.countP Exchange.isRefused
  /-- A batch that the connection ended with is a message as well. -/
  messages : connection.stats.messages = connection.stats.heartbeats + connection.stats.batches +
    connection.stats.nacks + ending.header.toList.length
  acceptances : replies.countP (·.kind == .ok) = connection.stats.heartbeats + connection.stats.batches

theorem Connection.Tells.conversed {connection : Connection} {exchanges : List Exchange}
    {ending : Ending} {last : Workers} {progress : Progress}
    (tells : connection.Tells settings exchanges ending last progress)
    (noEtag : connection.lastEtag = 0) (noStats : connection.stats = ⟨0, 0, 0, 0, 0, 0, 0⟩) :
    Conversed settings exchanges ending progress.replies progress.connection := by
  obtain ⟨replies, closed, -, messages, heartbeats, batches, nacks, errors⟩ := tells
  rw [noEtag] at replies
  rw [noStats] at messages heartbeats batches nacks errors
  simp only [Nat.zero_add] at messages heartbeats batches nacks errors
  refine ⟨replies, ?_, closed, errors, heartbeats, batches, nacks, ?_, ?_⟩
  · intro reply member refuses
    rw [replies, List.mem_append, Option.mem_toList] at member
    rcases member with answered | ended
    · exact Exchange.lastEtagAccepted_of_mem answered refuses
    · exact (Ending.of_reply ended).2
  · rw [messages, heartbeats, batches, nacks, Exchange.length_eq]
  · have last : ending.reply.toList.countP (·.kind == .ok) = 0 := by
      refine List.countP_eq_zero.mpr fun reply member => ?_
      rw [(Ending.of_reply (Option.mem_toList.mp member)).1]
      decide
    rw [replies, List.countP_append, last, Exchange.countP_replies, heartbeats, batches]
    rfl

namespace Node

variable {κ : Type} [DecidableEq κ] {key : κ} {node fresh : Node κ}

theorem deliver_eq (key : κ) (pieces : List Bytes) (node : Node κ) :
    node.deliver key pieces = node.advance key fun connection workers =>
      (connection.fed pieces.flatten).finish node.now workers := by
  induction pieces generalizing node with
  | nil =>
      simp only [List.flatten_nil, Connection.fed_nil]
      rfl
  | cons piece rest ih =>
      have still : (node.receive key piece).2.now = node.now := now_advance ..
      rw [deliver_cons, ih, still, List.flatten_cons, Connection.finish_fed_append,
        advance_andThen key (Connection.receive node.now piece)]
      rfl

/-- Every stream is answered as a conversation, wherever it is cut into pieces. A new connection handles
one message after another, each with one reply, until something ends it. -/
theorem conversation_answered (opened : node.connect key source = .ok fresh)
    (pieces : List Bytes) :
    ∃ routing exchanges ending connection,
      Routing.among node.workers.partitionCount = .ok routing ∧
      Dialogue node.settings source routing node.workers pieces.flatten exchanges ending
        (fresh.deliver key pieces).2.workers ∧
      (fresh.deliver key pieces).2.connections.get? key = some connection ∧
      Conversed node.settings exchanges ending (fresh.deliver key pieces).1 connection := by
  obtain ⟨connection, started, same⟩ := Except.bind_eq_ok_iff.mp opened
  cases same
  obtain ⟨idle, rfl, among⟩ := Connection.idle_start started
  obtain ⟨prepared, unread⟩ := idle.receive pieces.flatten
  obtain ⟨exchanges, ending, last, dialogue, tells⟩ :=
    @Connection.Prepared.tells _ (connection.fed pieces.flatten) prepared idle.waits node.now
      node.workers
  have delivered := deliver_eq key pieces
    { node with connections := node.connections.insert key connection }
  rw [advance_of_get? (Dictionary.get?_insert_self ..)] at delivered
  rw [show (connection.fed pieces.flatten).reader.unread = pieces.flatten from unread,
    ← tells.workers] at dialogue
  obtain ⟨noEtag, noStats⟩ := Connection.begins started
  rw [delivered]
  exact ⟨_, exchanges, ending, _, among, dialogue, Dictionary.get?_insert_self ..,
    tells.conversed noEtag noStats⟩

/-- A heartbeat and a poll, cut within the poll, and then nothing more. -/
def greetings : List Bytes :=
  [(Message.heartbeat 7).frame.encode ++ Message.poll.frame.encode.take 5,
    Message.poll.frame.encode.drop 5]

/-- Two partitions with nothing in them, and no connections. -/
def emptyNode : Node Nat :=
  start .standard (.start ⟨8, 8, 1000, []⟩ 2 2 [.create .memory, .create .mapped])

theorem conversation_answered_greetings :
    ∃ fresh, emptyNode.connect 0 "north" = .ok fresh ∧
      ∃ routing exchanges ending connection, Routing.among 2 = .ok routing ∧
        Dialogue .standard "north" routing emptyNode.workers greetings.flatten exchanges ending
          (fresh.deliver 0 greetings).2.workers ∧
        (fresh.deliver 0 greetings).2.connections.get? 0 = some connection ∧
        Conversed .standard exchanges ending (fresh.deliver 0 greetings).1 connection := by
  obtain ⟨fresh, opened⟩ : ∃ fresh, emptyNode.connect 0 "north" = .ok fresh := ⟨_, rfl⟩
  exact ⟨fresh, opened, conversation_answered opened greetings⟩

end Node

end DocumentReplication
