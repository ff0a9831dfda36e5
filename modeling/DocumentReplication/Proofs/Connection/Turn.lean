import DocumentReplication.Proofs.Fanout.Workers
import DocumentReplication.Proofs.Wire.Spool

/-!
The turns of a connection. Whatever arrives, a turn leaves the queue sound and lets the workers get on
by verified slices only; and a batch is only accepted after every change in it was committed, with a
slice of the batch, to the partition it is routed to.
-/

namespace DocumentReplication

variable {connection : Connection} {workers next : Workers} {now : Elapsed} {header : BatchHeader}
  {batch : IncomingBatch} {barrier : Barrier} {queue : BatchQueue} {turn : Turn}

namespace Connection

/-- A connection sorts its batches among so many partitions. -/
structure Sound (partitionCount : Nat) (connection : Connection) : Prop where
  queue : connection.queue.Sound
  partitionCount : connection.queue.routing.partitionCount = partitionCount

variable {count : Nat}

theorem sound_start {settings : ReplicationSettings} {source : String}
    (started : start settings source workers now = .ok connection) :
    connection.Sound workers.partitionCount := by
  obtain ⟨routing, among, same⟩ := Except.bind_eq_ok_iff.mp started
  cases same
  refine ⟨BatchQueue.sound_create routing, ?_⟩
  unfold Routing.among at among
  split at among
  · cases among
    rfl
  · contradiction

theorem Sound.close (sound : connection.Sound count) (outcome : Except Fault Unit) :
    (connection.close outcome).Sound count :=
  ⟨BatchQueue.sound_abort sound.queue, sound.partitionCount⟩

theorem Sound.fail (sound : connection.Sound count) (messageType : String) (fault : Fault) :
    (connection.fail messageType fault).1.Sound count :=
  ⟨BatchQueue.sound_abort sound.queue, sound.partitionCount⟩

theorem Sound.cancel (sound : connection.Sound count) : connection.cancel.Sound count := by
  unfold Connection.cancel
  split
  · exact sound.close _
  · exact sound

theorem Sound.elapse (sound : connection.Sound count) (now : Elapsed) :
    (connection.elapse now).Sound count := by
  unfold Connection.elapse
  split
  · split
    · exact sound.fail _ _
    · exact sound
  · exact sound

theorem Sound.expect (sound : connection.Sound count) (header : BatchHeader) :
    (connection.expect header).1.Sound count := by
  unfold Connection.expect
  simp only
  split
  · rename_i begun prepared
    obtain ⟨-, -, begins⟩ := Except.bind_eq_ok_iff.mp prepared
    obtain ⟨begunSound, routing⟩ := BatchQueue.begin_spec begins sound.queue
    exact ⟨begunSound, (congrArg Routing.partitionCount routing).trans sound.partitionCount⟩
  · exact sound.fail _ _

theorem Sound.handle (sound : connection.Sound count) (now : Elapsed) (message : Message) :
    (connection.handle now message).1.Sound count := by
  cases message with
  | documents header =>
      have counted (stats : ConnectionStats) : Sound count { connection with stats := stats } :=
        ⟨sound.queue, sound.partitionCount⟩
      exact (counted _).expect header
  | poll => exact ⟨sound.queue, sound.partitionCount⟩
  | heartbeat lastEtag => exact ⟨sound.queue, sound.partitionCount⟩

theorem reply_fail {messageType : String} {fault : Fault} {reply : Reply}
    (replied : (if fault.isNetworkFault then none
      else some (Reply.failed messageType fault.message)) = some reply) : reply.kind = .error := by
  split at replied
  · contradiction
  · cases replied
    rfl

theorem reply_handle {message : Message} {reply : Reply}
    (replied : (connection.handle now message).2 = some reply) :
    reply.kind = .error ∨ reply.messageType ≠ "Documents" := by
  cases message with
  | documents header =>
      simp only [Connection.handle, Connection.expect] at replied
      split at replied
      · contradiction
      · exact .inl (reply_fail replied)
  | poll =>
      cases replied
      exact .inr (by simp [accept, Reply.accepted, Message.type])
  | heartbeat lastEtag =>
      cases replied
      exact .inr (by simp [accept, Reply.accepted, Message.type])

theorem loadAll_hashed {payloads : List SpooledPayload} {loaded : List (String × Bytes)}
    (done : (payloads.mapM fun payload => do
      return (payload.hash, ← connection.reader.load payload) : Except Fault (List (String × Bytes))) =
        .ok loaded)
    (held : ∀ payload ∈ payloads, connection.reader.spool.Holds payload) :
    ∀ payload ∈ loaded, contentHash payload.2 = payload.1 := by
  induction payloads generalizing loaded with
  | nil =>
      cases done
      exact fun _ member => absurd member List.not_mem_nil
  | cons payload rest ih =>
      simp only [List.mapM_cons, Except.bind_eq_ok_iff] at done
      obtain ⟨first, ⟨content, read, same⟩, others, more, all⟩ := done
      cases same
      cases all
      intro wanted member
      rcases List.mem_cons.mp member with rfl | later
      · obtain ⟨known, found, hashed⟩ := held payload List.mem_cons_self
        obtain rfl : known = content := Except.ok.inj (found.symm.trans read)
        exact hashed
      · exact ih more (fun other otherMember => held other (List.mem_cons_of_mem _ otherMember))
          wanted later

/-- Where the changes of a batch went: each was committed to the partition it is routed to. -/
def Delivers (connection : Connection) (header : BatchHeader) (batch : IncomingBatch)
    (workers next : Workers) : Prop :=
  ∀ change ∈ batch.changes, ∃ partition items,
    connection.queue.routing.route (.change change) = .ok partition ∧ .change change ∈ items ∧
      workers.Commits partition ⟨connection.source, header.lastEtag, items⟩ next

theorem dispatch_spec (done : connection.dispatch header batch workers = .ok (barrier, queue, next))
    (sound : connection.queue.Sound)
    (held : ∀ payload ∈ batch.payloads, connection.reader.spool.Holds payload) :
    workers.Follows next ∧ queue.Sound ∧ queue.routing = connection.queue.routing ∧
      ∀ total, BatchOutcome.ofOutcomes barrier.outcomes = .ok (.applied total) →
        connection.Delivers header batch workers next := by
  simp only [dispatch, Except.bind_eq_ok_iff] at done
  obtain ⟨payloads, loaded, filled, fills, ⟨slices, emptied⟩, handed, _, finishes, same⟩ := done
  cases same
  have changesVerified : ∀ item ∈ batch.changes.map Item.change, item.Verified := by
    intro item member
    obtain ⟨change, -, rfl⟩ := List.mem_map.mp member
    trivial
  obtain ⟨filledSound, filledRouting, placed⟩ := BatchQueue.fill_spec fills sound changesVerified
    (loadAll_hashed loaded held)
  obtain ⟨⟨partitions, contents⟩, emptiedSound, emptiedRouting⟩ :=
    BatchQueue.handOut_spec handed filledSound
  obtain ⟨queueSound, queueRouting⟩ := BatchQueue.finish_spec finishes emptiedSound
  have verified : ∀ slice ∈ slices, ∀ item ∈ slice.items, item.Verified := by
    intro slice member item inSlice
    rw [contents slice member] at inSlice
    exact filledSound.verified slice.partition item inSlice
  have size : slices.length = filled.routing.partitionCount := by
    simpa using congrArg List.length partitions
  refine ⟨Workers.dispatch_follows verified _ _, queueSound,
    queueRouting.trans (emptiedRouting.trans filledRouting), fun total applied change member => ?_⟩
  obtain ⟨partition, routed, waits⟩ := placed (.change change) (List.mem_map_of_mem member)
  obtain ⟨slice, sliceMember, rfl⟩ : ∃ slice ∈ slices, slice.partition = partition := by
    refine List.mem_map.mp ?_
    rw [partitions, filledRouting]
    exact List.mem_range.mpr (Routing.route_lt routed)
  have inSlice : .change change ∈ slice.items := by
    rw [contents slice sliceMember]
    exact waits
  exact ⟨slice.partition, slice.items, routed, inSlice, Workers.dispatch_committed
    (by rw [partitions, size]) applied sliceMember (List.ne_nil_of_mem inSlice)⟩

theorem Sound.conclude (sound : connection.Sound count) (outcome : BatchOutcome) :
    (connection.conclude now header outcome).1.Sound count := by
  cases outcome <;> exact ⟨sound.queue, sound.partitionCount⟩

theorem apply_spec (now : Elapsed) (header : BatchHeader) (workers : Workers)
    (sound : connection.Sound count)
    (held : ∀ payload ∈ batch.payloads, connection.reader.spool.Holds payload) :
    (connection.apply now header batch workers).connection.Sound count ∧
      workers.Follows (connection.apply now header batch workers).workers ∧
      ∀ reply, (connection.apply now header batch workers).reply = some reply → reply.kind = .ok →
        connection.Delivers header batch workers
          (connection.apply now header batch workers).workers := by
  have receivedSound (received : ConnectionStats) : Sound count { connection with stats := received } :=
    ⟨sound.queue, sound.partitionCount⟩
  unfold Connection.apply
  simp only
  split
  · rename_i fault _
    refine ⟨(receivedSound _).fail (Message.documents header).type fault, .refl workers,
      fun reply replied kind => ?_⟩
    rw [reply_fail replied] at kind
    contradiction
  · rename_i barrier queue next done
    obtain ⟨follows, queueSound, routing, delivers⟩ := dispatch_spec done sound.queue held
    have leftSound (received : ConnectionStats) :
        Sound count { connection with stats := received, queue := queue } :=
      ⟨queueSound, (congrArg Routing.partitionCount routing).trans sound.partitionCount⟩
    -- Only a batch that every partition applied is accepted.
    cases result : BatchOutcome.ofOutcomes barrier.outcomes with
    | error fault =>
        refine ⟨(leftSound _).fail (Message.documents header).type fault, follows,
          fun reply replied kind => ?_⟩
        rw [reply_fail replied] at kind
        contradiction
    | ok outcome =>
        refine ⟨(leftSound _).conclude outcome, follows, fun reply replied kind => ?_⟩
        cases outcome with
        | applied total => exact delivers total result
        | attachmentsMissing reason =>
            cases replied
            contradiction

theorem turn_spec (taken : connection.turn? now workers = some turn) (sound : connection.Sound count) :
    turn.connection.Sound count ∧ workers.Follows turn.workers := by
  have read (reader : WireReader) : Sound count { connection with reader := reader } :=
    ⟨sound.queue, sound.partitionCount⟩
  simp only [turn?] at taken
  split at taken
  · contradiction
  · split at taken
    · contradiction
    · rename_i fault reader _
      cases taken
      exact ⟨(read reader).fail Message.unknownType fault, .refl workers⟩
    · rename_i message reader _
      cases taken
      exact ⟨(read reader).handle now message, .refl workers⟩
  · rename_i header _
    split at taken
    · contradiction
    · rename_i fault reader _
      cases taken
      exact ⟨(read reader).fail (Message.documents header).type fault, .refl workers⟩
    · rename_i found
      cases taken
      obtain ⟨later, follows, -⟩ := apply_spec now _ workers (read _)
        (WireReader.readBatch_holds found)
      exact ⟨later, follows⟩

theorem turn_delivers {reply : Reply} (taken : connection.turn? now workers = some turn)
    (sound : connection.Sound count) (replied : turn.reply = some reply) (kind : reply.kind = .ok)
    (documents : reply.messageType = "Documents") :
    ∃ header batch reader, connection.state = .receiving header ∧
      connection.reader.readBatch header = .done batch reader ∧
      connection.Delivers header batch workers turn.workers := by
  simp only [turn?] at taken
  split at taken
  · contradiction
  · split at taken
    · contradiction
    · cases taken
      rw [reply_fail replied] at kind
      contradiction
    · cases taken
      rcases reply_handle replied with failed | other
      · rw [failed] at kind
        contradiction
      · exact absurd documents other
  · rename_i header state
    split at taken
    · contradiction
    · cases taken
      rw [reply_fail replied] at kind
      contradiction
    · rename_i batch reader found
      cases taken
      have read : Sound count { connection with reader := reader } :=
        ⟨sound.queue, sound.partitionCount⟩
      obtain ⟨-, -, delivers⟩ := apply_spec now header workers read
        (WireReader.readBatch_holds found)
      exact ⟨header, batch, reader, state, found, delivers reply replied kind⟩

end Connection

end DocumentReplication
