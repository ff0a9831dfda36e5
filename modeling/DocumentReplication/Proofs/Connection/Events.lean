import DocumentReplication.Connection.Node
import DocumentReplication.Proofs.Connection.Turn
import DocumentReplication.Proofs.Store.RoundTrip

/-!
Runs of a node as sequences of events. An event is as small as anything the node can do by itself:
octets arrive, one connection takes one turn, a sender hangs up, time passes. What a node does when
octets arrive is a run of such events, and so is what it does when a sender closes its side.

Connections work at the same time, so that slices of several of them meet at a partition, in any order
and sharing transactions. A cycle of a scheduler is therefore an event of its own, whoever submitted
the slices.
-/

namespace DocumentReplication

variable {now : Elapsed} {connection : Connection} {workers : Workers}

namespace Connection

def step (now : Elapsed) (connection : Connection) (workers : Workers) : Progress :=
  match connection.turn? now workers with
  | none => ⟨connection, workers, []⟩
  | some turn => ⟨turn.connection, turn.workers, turn.reply.toList⟩

/-- No more octets will arrive, and the connection may be waiting for some. -/
def starve (connection : Connection) (workers : Workers) : Progress :=
  match connection.starvation? with
  | none => ⟨connection, workers, []⟩
  | some (messageType, fault, reader) =>
    let (connection, reply) := { connection with reader := reader }.fail messageType fault
    ⟨connection, workers, reply.toList⟩

def Progress.andThen (progress : Progress) (work : Connection → Workers → Progress) : Progress :=
  let rest := work progress.connection progress.workers
  { rest with replies := progress.replies ++ rest.replies }

theorem run_of_rest (rest : connection.turn? now workers = none) :
    run now connection workers = ⟨connection, workers, []⟩ := by
  rw [run]
  split
  · rfl
  · rename_i found
    rw [rest] at found
    contradiction

theorem run_of_turn {turn : Turn} (taken : connection.turn? now workers = some turn) :
    run now connection workers =
      ⟨(run now turn.connection turn.workers).connection,
        (run now turn.connection turn.workers).workers,
        turn.reply.toList ++ (run now turn.connection turn.workers).replies⟩ := by
  rw [run]
  split
  · rename_i nothing
    rw [taken] at nothing
    contradiction
  · rename_i other found
    obtain rfl : turn = other := Option.some.inj (taken.symm.trans found)
    rfl

theorem run_of_closed {outcome : Except Fault Unit} (closed : connection.state = .closed outcome)
    (now : Elapsed) (workers : Workers) : connection.run now workers = ⟨connection, workers, []⟩ := by
  refine run_of_rest ?_
  unfold turn?
  rw [closed]

theorem run_eq_step (now : Elapsed) :
    run now = fun connection workers => (step now connection workers).andThen (run now) := by
  funext connection workers
  unfold step
  cases taken : connection.turn? now workers with
  | some turn => exact run_of_turn taken
  | none => rfl

theorem starve_of_closed {outcome : Except Fault Unit} (closed : connection.state = .closed outcome)
    (workers : Workers) : connection.starve workers = ⟨connection, workers, []⟩ := by
  unfold Connection.starve starvation?
  rw [closed]

theorem finish_eq (now : Elapsed) :
    finish now = fun connection workers => (run now connection workers).andThen starve := by
  funext connection workers
  unfold finish Progress.andThen starve
  cases waiting : (run now connection workers).connection.starvation? with
  | none => simp [waiting]
  | some left => simp [waiting]

theorem starve_spec {count : Nat} (sound : connection.Sound count) (workers : Workers) :
    (connection.starve workers).connection.Sound count ∧
      workers.Follows (connection.starve workers).workers := by
  unfold starve
  split
  · exact ⟨sound, .refl _⟩
  · rename_i messageType fault reader _
    have read : Sound count { connection with reader := reader } :=
      ⟨sound.queue, sound.partitionCount⟩
    exact ⟨read.fail messageType fault, .refl _⟩

theorem step_spec {count : Nat} (sound : connection.Sound count) (now : Elapsed)
    (workers : Workers) :
    (connection.step now workers).connection.Sound count ∧
      workers.Follows (connection.step now workers).workers := by
  unfold step
  split
  · exact ⟨sound, .refl _⟩
  · rename_i taken
    exact turn_spec taken sound

end Connection

namespace Node

/-- What happens to a node. -/
inductive Event (κ : Type) where
  | connect (key : κ) (source : String)
  | arrive (key : κ) (bytes : Bytes)
  | turn (key : κ)
  /-- The sender has closed its side, and all that arrived before was dealt with. -/
  | hangUp (key : κ)
  | cancel (key : κ)
  | forget (key : κ)
  | elapse (moment : Elapsed)
  | stop
  | cycle (partition : Nat) (slices : List Slice) (verified : ∀ slice ∈ slices, slice.Verified)

variable {κ : Type} [DecidableEq κ] {key : κ} {node : Node κ} {events : List (Event κ)}

def occur (event : Event κ) (node : Node κ) : List Reply × Node κ :=
  match event with
  | .connect key source =>
    match node.connect key source with
    | .ok node => ([], node)
    | .error _ => ([], node)
  | .arrive key bytes => node.advance key fun connection workers =>
      ⟨{ connection with reader := connection.reader.receive bytes }, workers, []⟩
  | .turn key => node.advance key (Connection.step node.now)
  | .hangUp key => node.advance key Connection.starve
  | .cancel key => ([], node.cancel key)
  | .forget key => ([], node.forget key)
  | .elapse moment => ([], node.elapseTo moment)
  | .stop => ([], node.stop)
  | .cycle partition slices _ => ([], { node with workers := node.workers.cycle partition slices })

/-- All events one after another, with the replies on the way. -/
def run : List (Event κ) → Node κ → List Reply × Node κ
  | [], node => ([], node)
  | event :: rest, node =>
    let (replies, next) := node.occur event
    let (others, last) := run rest next
    (replies ++ others, last)

def after (events : List (Event κ)) (node : Node κ) : Node κ := (run events node).2

theorem run_cons (event : Event κ) (rest : List (Event κ)) (node : Node κ) :
    run (event :: rest) node = ((node.occur event).1 ++ (run rest (node.occur event).2).1,
      (run rest (node.occur event).2).2) := rfl

theorem run_append (first last : List (Event κ)) (node : Node κ) :
    run (first ++ last) node =
      ((run first node).1 ++ (run last (node.after first)).1, (node.after first).after last) := by
  induction first generalizing node with
  | nil => rfl
  | cons event rest ih =>
      simp only [List.cons_append, run_cons, after, ih, List.append_assoc]

theorem advance_of_get? (found : node.connections.get? key = some connection)
    (work : Connection → Workers → Connection.Progress) :
    node.advance key work = ((work connection node.workers).replies, { node with
      workers := (work connection node.workers).workers
      connections := node.connections.insert key (work connection node.workers).connection }) := by
  unfold advance
  rw [found]

theorem advance_andThen (key : κ) (first last : Connection → Workers → Connection.Progress)
    (node : Node κ) :
    (node.advance key fun connection workers => (first connection workers).andThen last) =
      ((node.advance key first).1 ++ ((node.advance key first).2.advance key last).1,
        ((node.advance key first).2.advance key last).2) := by
  unfold advance
  cases found : node.connections.get? key with
  | none => simp [found]
  | some connection =>
      simp only [Dictionary.get?_insert_self, Dictionary.insert_insert, Connection.Progress.andThen]

theorem now_advance (key : κ) (work : Connection → Workers → Connection.Progress) (node : Node κ) :
    (node.advance key work).2.now = node.now := by
  unfold advance
  split <;> rfl

/-- The connection under a key has no turn to take. -/
def rests (key : κ) (node : Node κ) : Bool :=
  ((node.connections.get? key).bind fun connection =>
    connection.turn? node.now node.workers).isNone

theorem exists_rests (key : κ) (node : Node κ) :
    ∃ turns, (node.after (List.replicate turns (.turn key))).rests key = true := by
  cases found : node.connections.get? key with
  | none => exact ⟨0, by simp [after, run, rests, found]⟩
  | some connection =>
      -- On the weight of the connection, which every turn makes less.
      generalize weight : connection.weight = left
      induction left using Nat.strongRecOn generalizing node connection with
      | ind left ih =>
          cases taken : connection.turn? node.now node.workers with
          | none => exact ⟨0, by simp [after, run, rests, found, taken]⟩
          | some turn =>
              have lighter : turn.connection.weight < left := weight ▸ Connection.weight_lt taken
              have next : (node.occur (.turn key)).2.connections.get? key = some turn.connection := by
                simp only [occur, advance, found, Connection.step, taken, Dictionary.get?_insert_self]
              obtain ⟨turns, rest⟩ := ih _ lighter (node.occur (.turn key)).2 turn.connection next rfl
              exact ⟨turns + 1, rest⟩

theorem run_turns_of_rests (turns : Nat) (node : Node κ)
    (still : (node.after (List.replicate turns (.turn key))).rests key = true) :
    run (List.replicate turns (.turn key)) node = node.advance key (Connection.run node.now) := by
  induction turns generalizing node with
  | zero =>
      have still : node.rests key = true := still
      unfold rests at still
      unfold advance
      cases found : node.connections.get? key with
      | none => rfl
      | some connection =>
          rw [found, Option.bind_some, Option.isNone_iff_eq_none] at still
          simp only [Connection.run_of_rest still, Dictionary.insert_of_get? found]
          rfl
  | succ turns ih =>
      have same : (node.occur (.turn key)).2.now = node.now := now_advance ..
      have whole := advance_andThen key (Connection.step node.now) (Connection.run node.now) node
      rw [← Connection.run_eq_step] at whole
      rw [List.replicate_succ, run_cons, ih (node.occur (.turn key)).2 still, same, whole]
      rfl

/-- Receiving takes as many turns as there are to take. -/
theorem run_of_rests {bytes : Bytes} (turns : Nat)
    (still : (node.after (.arrive key bytes :: List.replicate turns (.turn key))).rests key = true) :
    run (.arrive key bytes :: List.replicate turns (.turn key)) node = node.receive key bytes := by
  have same : (node.occur (.arrive key bytes)).2.now = node.now := now_advance ..
  rw [run_cons, run_turns_of_rests turns (node.occur (.arrive key bytes)).2 still, same]
  exact (advance_andThen key _ (Connection.run node.now) node).symm

theorem exists_run_receive (key : κ) (bytes : Bytes) (node : Node κ) :
    ∃ turns, run (.arrive key bytes :: List.replicate turns (.turn key)) node =
      node.receive key bytes := by
  obtain ⟨turns, still⟩ := exists_rests key (node.occur (.arrive key bytes)).2
  exact ⟨turns, run_of_rests turns still⟩

/-- A node whose sender hangs up takes the turns that are left first. -/
theorem exists_run_finish (key : κ) (node : Node κ) :
    ∃ turns, run (List.replicate turns (.turn key) ++ [.hangUp key]) node = node.finish key := by
  obtain ⟨turns, still⟩ := exists_rests key node
  refine ⟨turns, ?_⟩
  simp only [run_append, run, after, List.append_nil, run_turns_of_rests turns node still, finish,
    Connection.finish_eq, advance_andThen]
  rfl

/-- All connections sort their batches among the partitions of the workers. -/
def Sound (node : Node κ) : Prop :=
  ∀ key connection, node.connections.get? key = some connection →
    connection.Sound node.workers.partitionCount

theorem sound_start (settings : ReplicationSettings) (workers : Workers) :
    (start settings workers : Node κ).Sound := by
  intro key connection found
  cases found

theorem Sound.insert {workers : Workers} (sound : node.Sound)
    (same : workers.partitionCount = node.workers.partitionCount)
    (inserted : connection.Sound node.workers.partitionCount) (key : κ) :
    Sound { node with workers := workers, connections := node.connections.insert key connection } := by
  intro other held found
  simp only [Dictionary.get?_insert] at found
  simp only [same]
  split at found
  · cases found
    exact inserted
  · exact sound other held found

theorem Sound.mapValues {change : Connection → Connection} (sound : node.Sound)
    (keeps : ∀ {connection : Connection}, connection.Sound node.workers.partitionCount →
      (change connection).Sound node.workers.partitionCount) (now : Elapsed) :
    Sound { node with now := now, connections := node.connections.mapValues change } := by
  intro key connection found
  simp only [Dictionary.get?_mapValues, Option.map_eq_some_iff] at found
  obtain ⟨held, there, rfl⟩ := found
  exact keeps (sound key held there)

theorem Sound.advance {work : Connection → Workers → Connection.Progress} (sound : node.Sound)
    (keeps : ∀ {connection : Connection}, connection.Sound node.workers.partitionCount →
      (work connection node.workers).connection.Sound node.workers.partitionCount ∧
        node.workers.Follows (work connection node.workers).workers) (key : κ) :
    (node.advance key work).2.Sound ∧ node.workers.Follows (node.advance key work).2.workers := by
  unfold Node.advance
  cases found : node.connections.get? key with
  | none => exact ⟨sound, .refl _⟩
  | some connection =>
      obtain ⟨inserted, follows⟩ := keeps (sound key connection found)
      exact ⟨sound.insert follows.partitionCount inserted key, follows⟩

/-- One event leaves the connections sound, and lets the stores get on by verified slices only. -/
theorem occur_spec (sound : node.Sound) (event : Event κ) :
    (node.occur event).2.Sound ∧ node.workers.Follows (node.occur event).2.workers := by
  cases event with
  | connect key source =>
      simp only [occur]
      cases opened : node.connect key source with
      | error fault => exact ⟨sound, .refl _⟩
      | ok next =>
          obtain ⟨connection, started, same⟩ := Except.bind_eq_ok_iff.mp opened
          cases same
          exact ⟨sound.insert rfl (Connection.sound_start started) key, .refl _⟩
  | arrive key bytes =>
      exact sound.advance (fun held => ⟨⟨held.queue, held.partitionCount⟩, .refl _⟩) key
  | turn key => exact sound.advance (fun held => Connection.step_spec held _ _) key
  | hangUp key => exact sound.advance (fun held => Connection.starve_spec held _) key
  | cancel key =>
      simp only [occur, cancel]
      split
      · exact ⟨sound, .refl _⟩
      · rename_i connection found
        exact ⟨sound.insert rfl (sound key connection found).cancel key, .refl _⟩
  | forget key =>
      refine ⟨fun other connection found => ?_, .refl _⟩
      simp only [occur, forget, Dictionary.get?_erase] at found
      split at found
      · contradiction
      · exact sound other connection found
  | elapse moment => exact ⟨sound.mapValues (fun held => held.elapse moment) moment, .refl _⟩
  | stop => exact ⟨sound.mapValues (fun held => held.cancel) node.now, .refl _⟩
  | cycle partition slices verified =>
      have follows := Workers.cycle_follows verified partition node.workers
      refine ⟨fun key connection found => ?_, follows⟩
      simp only [occur, follows.partitionCount]
      exact sound key connection found

theorem after_spec (sound : node.Sound) (events : List (Event κ)) :
    (node.after events).Sound ∧ node.workers.Follows (node.after events).workers := by
  induction events generalizing node with
  | nil => exact ⟨sound, .refl _⟩
  | cons event rest ih =>
      obtain ⟨nextSound, first⟩ := occur_spec sound event
      obtain ⟨lastSound, others⟩ := ih nextSound
      exact ⟨lastSound, first.trans others⟩

end Node

end DocumentReplication
