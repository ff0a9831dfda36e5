import DocumentReplication.Connection.Progress

/-!
A node holds the connections of its peers, each under a key of its own, and the workers that they
share. Its clock stands still until time is said to pass, so everything it does follows from what
arrives and when.
-/

namespace DocumentReplication

structure Node (κ : Type) [DecidableEq κ] where
  settings : ReplicationSettings
  now : Elapsed
  workers : Workers
  connections : Dictionary κ Connection

namespace Node

variable {κ : Type} [DecidableEq κ]

def start (settings : ReplicationSettings) (workers : Workers) : Node κ :=
  ⟨settings, ⟨0⟩, workers, .empty⟩

def connect (key : κ) (source : String) (node : Node κ) : Except Fault (Node κ) := do
  let connection ← Connection.start node.settings source node.workers node.now
  return { node with connections := node.connections.insert key connection }

def outcome? (key : κ) (node : Node κ) : Option (Except Fault Unit) :=
  (node.connections.get? key).bind Connection.outcome?

/-- Lets one connection get on with its work. -/
def advance (key : κ) (work : Connection → Workers → Connection.Progress) (node : Node κ) :
    List Reply × Node κ :=
  match node.connections.get? key with
  | none => ([], node)
  | some connection =>
    let progress := work connection node.workers
    (progress.replies, { node with
      workers := progress.workers
      connections := node.connections.insert key progress.connection })

def receive (key : κ) (bytes : Bytes) (node : Node κ) : List Reply × Node κ :=
  node.advance key (Connection.receive node.now bytes)

def finish (key : κ) (node : Node κ) : List Reply × Node κ :=
  node.advance key (Connection.finish node.now)

def cancel (key : κ) (node : Node κ) : Node κ :=
  match node.connections.get? key with
  | none => node
  | some connection =>
    { node with connections := node.connections.insert key connection.cancel }

def forget (key : κ) (node : Node κ) : Node κ :=
  { node with connections := node.connections.erase key }

def stop (node : Node κ) : Node κ :=
  { node with connections := node.connections.mapValues Connection.cancel }

def elapseTo (moment : Elapsed) (node : Node κ) : Node κ :=
  { node with
    now := moment
    connections := node.connections.mapValues (Connection.elapse moment) }

def elapse (span : Elapsed) (node : Node κ) : Node κ :=
  node.elapseTo ⟨node.now.micros + span.micros⟩

def deadline? (node : Node κ) : Option Elapsed :=
  let deadlines := node.connections.entries.filterMap fun (_, connection) => connection.deadline?
  (deadlines.map (·.micros)).min?.map Elapsed.mk

/-- Lets time pass until a connection has ended. It may be that time alone does not end it; but
every deadline ends one connection at least, so there are no more of them than connections. -/
def expire (key : κ) (node : Node κ) : Node κ :=
  go node.connections.size node
where
  go : Nat → Node κ → Node κ
    | 0, node => node
    | count + 1, node =>
      match node.outcome? key, node.deadline? with
      | none, some deadline => go count (node.elapseTo deadline)
      | _, _ => node

end Node

end DocumentReplication
