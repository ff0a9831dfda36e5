import DocumentReplication.Connection.Basic

/-!
A connection takes turns as long as the octets that have arrived allow. Every turn uses octets up or
ends the wait for a batch, so it comes to rest: `Connection.weight_lt` is the reason.
-/

namespace DocumentReplication

namespace Intake

variable {σ τ α β : Type}

theorem check_eq_done_iff {intake : Intake σ α} {accept : α → Except Fault β} {result : β}
    {state : σ} :
    intake.check accept = done result state ↔
      ∃ value, intake = done value state ∧ accept value = .ok result := by
  cases intake with
  | done value middle =>
      simp only [check, andThen]
      cases accepted : accept value with
      | ok found =>
          constructor
          · intro same
            cases same
            exact ⟨value, rfl, accepted⟩
          · rintro ⟨_, same, found⟩
            cases same
            rw [accepted] at found
            cases found
            rfl
      | error fault =>
          simp only [reduceCtorEq, false_iff, not_exists, not_and]
          intro _ same found
          cases same
          rw [accepted] at found
          contradiction
  | refused fault state => simp [check, andThen]
  | starved fault state => simp [check, andThen]

theorem lift_eq_done_iff {intake : Intake σ α} {enlarge : σ → τ} {value : α} {state : τ} :
    intake.lift enlarge = done value state ↔
      ∃ inner, intake = done value inner ∧ enlarge inner = state := by
  cases intake <;> simp [lift, and_assoc]

theorem mapFault_eq_done_iff {intake : Intake σ α} {change : Fault → Fault} {value : α}
    {state : σ} : intake.mapFault change = done value state ↔ intake = done value state := by
  cases intake <;> simp [mapFault]

end Intake

namespace WireReader

theorem readFrame_unread {kind : FrameKind} {reader next : WireReader} {payload : Bytes}
    (found : reader.readFrame kind = .done payload next) :
    next.unread.length < reader.unread.length := by
  obtain ⟨rest, read, rfl⟩ := Intake.lift_eq_done_iff.mp found
  obtain ⟨frame, read, -⟩ := Intake.check_eq_done_iff.mp read
  obtain ⟨bytes, -, -⟩ := Frame.read_eq_done_iff.mp read
  simp only [bytes, List.length_append, Frame.length_encode]
  omega

theorem readMessage_unread {reader next : WireReader} {message : Message}
    (found : reader.readMessage = .done message next) :
    next.unread.length < reader.unread.length := by
  obtain ⟨_, read, -⟩ := Intake.check_eq_done_iff.mp found
  exact readFrame_unread read

theorem readChange_unread {reader next : WireReader} {change : Change}
    (found : reader.readChange = .done change next) :
    next.unread.length ≤ reader.unread.length := by
  obtain ⟨_, read, -⟩ := Intake.check_eq_done_iff.mp found
  exact Nat.le_of_lt (readFrame_unread read)

theorem spool_accept_unread {limit : Nat} {descriptor : PayloadDescriptor} {spool grown : Spool}
    {bytes rest : Bytes} {payload : SpooledPayload}
    (found : spool.accept limit descriptor bytes = .done payload (grown, rest)) :
    rest.length ≤ bytes.length := by
  simp only [Spool.accept] at found
  split at found
  · contradiction
  · split at found
    · contradiction
    · rename_i taken left split
      split at found
      · cases found
        obtain ⟨rfl, -⟩ := Bytes.split?_eq_some_iff.mp split
        simp
      · contradiction

theorem readPayload_unread {reader next : WireReader} {payload : SpooledPayload}
    (found : reader.readPayload = .done payload next) :
    next.unread.length ≤ reader.unread.length := by
  obtain ⟨descriptor, middle, announced, accepted⟩ := Intake.andThen_eq_done_iff.mp found
  obtain ⟨_, read, -⟩ := Intake.check_eq_done_iff.mp announced
  obtain ⟨⟨grown, rest⟩, taken, rfl⟩ := Intake.lift_eq_done_iff.mp accepted
  exact Nat.le_trans (spool_accept_unread taken) (Nat.le_of_lt (readFrame_unread read))

theorem readMany_unread {α : Type} {read : WireReader → Intake WireReader α}
    (shrinks : ∀ {reader next value}, read reader = .done value next →
      next.unread.length ≤ reader.unread.length)
    {count : Nat} {reader next : WireReader} {values : List α}
    (found : readMany read count reader = .done values next) :
    next.unread.length ≤ reader.unread.length := by
  induction count generalizing reader values with
  | zero =>
      cases found
      exact Nat.le_refl _
  | succ count ih =>
      obtain ⟨first, middle, one, others⟩ := Intake.andThen_eq_done_iff.mp found
      obtain ⟨rest, last, many, same⟩ := Intake.andThen_eq_done_iff.mp others
      cases same
      exact Nat.le_trans (ih many) (shrinks one)

theorem readBatch_unread {header : BatchHeader} {reader next : WireReader} {batch : IncomingBatch}
    (found : reader.readBatch header = .done batch next) :
    next.unread.length ≤ reader.unread.length := by
  obtain ⟨changes, middle, first, rest⟩ :=
    Intake.andThen_eq_done_iff.mp (Intake.mapFault_eq_done_iff.mp found)
  obtain ⟨payloads, last, second, same⟩ := Intake.andThen_eq_done_iff.mp rest
  cases same
  have changesRead := readMany_unread readChange_unread first
  exact Nat.le_trans (readMany_unread readPayload_unread second) changesRead

end WireReader

namespace Connection

/-- How much a connection can still do with the octets it has. -/
def weight (connection : Connection) : Nat :=
  match connection.state with
  | .closed _ => 0
  | .awaiting => 2 * connection.reader.unread.length + 1
  | .receiving _ => 2 * connection.reader.unread.length + 2

@[simp] theorem weight_fail (messageType : String) (fault : Fault) (connection : Connection) :
    (connection.fail messageType fault).1.weight = 0 := rfl

theorem weight_expect (header : BatchHeader) (connection : Connection) :
    (connection.expect header).1.weight ≤ 2 * connection.reader.unread.length + 2 := by
  simp only [expect]
  split
  · exact Nat.le_refl _
  · simp

theorem weight_handle (now : Elapsed) (message : Message) (connection : Connection) :
    (connection.handle now message).1.weight ≤ 2 * connection.reader.unread.length + 2 := by
  cases message with
  | documents header => exact weight_expect header _
  | poll => exact Nat.le_succ _
  | heartbeat lastEtag => exact Nat.le_succ _

theorem weight_conclude (now : Elapsed) (header : BatchHeader) (outcome : BatchOutcome)
    (connection : Connection) :
    (connection.conclude now header outcome).1.weight =
      2 * connection.reader.unread.length + 1 := by
  cases outcome <;> rfl

theorem weight_apply (now : Elapsed) (header : BatchHeader) (batch : IncomingBatch)
    (connection : Connection) (workers : Workers) :
    (connection.apply now header batch workers).connection.weight ≤
      2 * connection.reader.unread.length + 1 := by
  simp only [apply]
  split
  · exact Nat.zero_le _
  · split
    · exact Nat.le_of_eq (weight_conclude ..)
    · exact Nat.zero_le _

theorem weight_lt {now : Elapsed} {connection : Connection} {workers : Workers} {turn : Turn}
    (taken : connection.turn? now workers = some turn) :
    turn.connection.weight < connection.weight := by
  simp only [turn?] at taken
  split at taken
  · contradiction
  · rename_i state
    have whole : connection.weight = 2 * connection.reader.unread.length + 1 := by
      simp [weight, state]
    rw [whole]
    split at taken
    · contradiction
    · cases taken
      exact Nat.succ_pos _
    · rename_i message reader read
      cases taken
      have shorter := WireReader.readMessage_unread read
      have bound := weight_handle now message { connection with reader := reader }
      simp only at bound ⊢
      omega
  · rename_i header state
    have whole : connection.weight = 2 * connection.reader.unread.length + 2 := by
      simp [weight, state]
    rw [whole]
    split at taken
    · contradiction
    · cases taken
      exact Nat.succ_pos _
    · rename_i batch reader read
      cases taken
      have shorter := WireReader.readBatch_unread read
      have bound := weight_apply now header batch { connection with reader := reader } workers
      simp only at bound ⊢
      omega

/-- A connection at rest, with the stores and the replies on the way there. -/
structure Progress where
  connection : Connection
  workers : Workers
  replies : List Reply

def run (now : Elapsed) (connection : Connection) (workers : Workers) : Progress :=
  match _taken : connection.turn? now workers with
  | none => ⟨connection, workers, []⟩
  | some turn =>
    let rest := run now turn.connection turn.workers
    { rest with replies := turn.reply.toList ++ rest.replies }
termination_by connection.weight
decreasing_by exact weight_lt _taken

def receive (now : Elapsed) (bytes : Bytes) (connection : Connection) (workers : Workers) :
    Progress :=
  run now { connection with reader := connection.reader.receive bytes } workers

def finish (now : Elapsed) (connection : Connection) (workers : Workers) : Progress :=
  let progress := run now connection workers
  match progress.connection.starvation? with
  | none => progress
  | some (messageType, fault, reader) =>
    let (connection, reply) := { progress.connection with reader := reader }.fail messageType fault
    ⟨connection, progress.workers, progress.replies ++ reply.toList⟩

end Connection

end DocumentReplication
