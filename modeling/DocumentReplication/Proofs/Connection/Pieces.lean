import DocumentReplication.Proofs.Connection.Events
import DocumentReplication.Proofs.Wire.Arrival

/-!
Streams that arrive in pieces. A turn that can be taken stays the same when more octets arrive before
it is taken, so a connection answers a stream in the same way however it is cut.
-/

namespace DocumentReplication

variable {now : Elapsed} {connection : Connection} {workers : Workers} {turn : Turn} {more : Bytes}

namespace Connection

/-- The connection with more octets to read. -/
def fed (bytes : Bytes) (connection : Connection) : Connection :=
  { connection with reader := connection.reader.receive bytes }

theorem fed_nil (connection : Connection) : connection.fed [] = connection := by
  simp only [fed, WireReader.receive, List.append_nil]

theorem fed_append (first last : Bytes) (connection : Connection) :
    connection.fed (first ++ last) = (connection.fed first).fed last := by
  simp only [fed, WireReader.receive, List.append_assoc]

theorem handle_fed (now : Elapsed) (message : Message) (more : Bytes) (connection : Connection) :
    (connection.fed more).handle now message =
      ((connection.handle now message).1.fed more, (connection.handle now message).2) := by
  cases message with
  | poll => rfl
  | heartbeat lastEtag => rfl
  | documents header =>
      simp only [handle, expect, fed]
      split <;> rfl

theorem apply_fed (now : Elapsed) (header : BatchHeader) (batch : IncomingBatch) (more : Bytes)
    (connection : Connection) (workers : Workers) :
    (connection.fed more).apply now header batch workers =
      { connection.apply now header batch workers with
        connection := (connection.apply now header batch workers).connection.fed more } := by
  -- Payloads are loaded from the spool, whatever is left to read.
  have same (stats : ConnectionStats) :
      dispatch header batch { connection.fed more with stats := stats } workers =
        dispatch header batch { connection with stats := stats } workers := rfl
  simp only [apply]
  simp only [fed] at same ⊢
  rw [same]
  split
  · rfl
  · rename_i barrier queue next _
    cases BatchOutcome.ofOutcomes barrier.outcomes with
    | error fault => rfl
    | ok outcome => cases outcome <;> rfl

theorem turn?_fed (taken : connection.turn? now workers = some turn) (more : Bytes) :
    (connection.fed more).turn? now workers =
      some { turn with connection := turn.connection.fed more } := by
  obtain ⟨source, settings, reader, queue, state, waitingSince, lastEtag, stats⟩ := connection
  cases state with
  | closed outcome => contradiction
  | awaiting =>
      have grows := WireReader.gradual_readMessage reader more
      simp only [turn?, fed] at taken ⊢
      cases found : reader.readMessage with
      | starved fault next =>
          rw [found] at taken
          contradiction
      | refused fault next =>
          rw [found] at taken grows
          cases taken
          rw [grows.of_refused]
          rfl
      | done message next =>
          rw [found] at taken grows
          cases taken
          rw [grows.of_done]
          have handled := handle_fed now message more
            ⟨source, settings, next, queue, .awaiting, waitingSince, lastEtag, stats⟩
          exact congrArg (fun result : Connection × Option Reply =>
            some (Turn.mk result.1 workers result.2)) handled
  | receiving header =>
      have grows := WireReader.gradual_readBatch header reader more
      simp only [turn?, fed] at taken ⊢
      cases found : reader.readBatch header with
      | starved fault next =>
          rw [found] at taken
          contradiction
      | refused fault next =>
          rw [found] at taken grows
          cases taken
          rw [grows.of_refused]
          rfl
      | done batch next =>
          rw [found] at taken grows
          cases taken
          rw [grows.of_done]
          have applied := apply_fed now header batch more
            ⟨source, settings, next, queue, .receiving header, waitingSince, lastEtag, stats⟩ workers
          exact congrArg some applied

/-- A connection that comes to rest goes on from there when more octets arrive, as if they had been
there all along. -/
theorem run_fed (now : Elapsed) (more : Bytes) (connection : Connection) (workers : Workers) :
    run now (connection.fed more) workers = (run now connection workers).andThen (receive now more) := by
  generalize weight : connection.weight = measure
  induction measure using Nat.strongRecOn generalizing connection workers with
  | ind measure ih =>
      cases taken : connection.turn? now workers with
      | none => rw [run_of_rest taken]; rfl
      | some turn =>
          have rest := ih _ (weight ▸ weight_lt taken) turn.connection turn.workers rfl
          rw [run_of_turn taken, run_of_turn (turn?_fed taken more), rest]
          simp only [Progress.andThen, List.append_assoc]

theorem receive_append (now : Elapsed) (first last : Bytes) :
    receive now (first ++ last) = fun connection workers =>
      (receive now first connection workers).andThen (receive now last) := by
  funext connection workers
  exact (congrArg (run now · workers) (fed_append first last connection)).trans (run_fed ..)

end Connection

namespace Node

variable {κ : Type} [DecidableEq κ]

/-- What a connection gets in several pieces. -/
def receiveAll (key : κ) : List Bytes → Node κ → List Reply × Node κ
  | [], node => ([], node)
  | piece :: rest, node =>
    let (replies, next) := node.receive key piece
    let (others, last) := receiveAll key rest next
    (replies ++ others, last)

theorem receiveAll_cons (key : κ) (piece : Bytes) (rest : List Bytes) (node : Node κ) :
    node.receiveAll key (piece :: rest) =
      ((node.receive key piece).1 ++ ((node.receive key piece).2.receiveAll key rest).1,
        ((node.receive key piece).2.receiveAll key rest).2) := rfl

theorem receive_append (key : κ) (first last : Bytes) (node : Node κ) :
    node.receive key (first ++ last) =
      ((node.receive key first).1 ++ ((node.receive key first).2.receive key last).1,
        ((node.receive key first).2.receive key last).2) := by
  have later : (node.receive key first).2.receive key last =
      (node.receive key first).2.advance key (Connection.receive node.now last) := by
    have still : (node.receive key first).2.now = node.now := now_advance ..
    rw [← still]
    rfl
  rw [later, receive, Connection.receive_append]
  exact advance_andThen key (Connection.receive node.now first) _ node

/-- How a stream is cut into pieces does not matter. -/
theorem receiveAll_eq (key : κ) (piece : Bytes) (rest : List Bytes) (node : Node κ) :
    node.receiveAll key (piece :: rest) = node.receive key (piece :: rest).flatten := by
  induction rest generalizing piece node with
  | nil => simp only [receiveAll, List.flatten_cons, List.flatten_nil, List.append_nil]
  | cons next others ih =>
      rw [receiveAll_cons, ih]
      exact (receive_append key piece _ node).symm

end Node

end DocumentReplication
