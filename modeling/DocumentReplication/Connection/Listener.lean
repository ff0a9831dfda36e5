import DocumentReplication.Connection.Node
import DocumentReplication.Connection.Registry

/-!
The listener of a node gives every peer a connection, as far as the registry allows. All connections
share the workers, so batches of different peers meet in the stores only.
-/

namespace DocumentReplication

structure ListenerStats where
  accepted : Nat
  failed : Nat
  rejected : Nat
deriving DecidableEq, Repr, Inhabited

structure Listener where
  /-- The connections go by the numbers of their registrations. -/
  node : Node Nat
  registry : Registry
  registrations : Dictionary Nat Registration
  stats : ListenerStats

/-- What comes of an attempt to connect: the number of the connection, or a last reply. -/
inductive Admission where
  | accepted (number : Nat)
  | refused (reply : Reply)
  | failed (fault : Fault)

namespace Listener

def create (settings : ReplicationSettings) (workers : Workers) : Listener :=
  ⟨.start settings workers, .create (.ofMillis settings.activeTimeoutMillis), .empty, ⟨0, 0, 0⟩⟩

def bind (bound : Except StreamError Unit) (settings : ReplicationSettings) (workers : Workers) :
    Except Fault Listener :=
  match bound with
  | .ok _ => .ok (create settings workers)
  | .error cause => .error (.stream cause)

def activeConnections (listener : Listener) : Nat := listener.registry.size

def sweep (listener : Listener) : Listener :=
  listener.registrations.entries.foldl (fun listener (number, registration) =>
    match listener.node.outcome? number with
    | none => listener
    | some outcome =>
      { node := listener.node.forget number
        registry := listener.registry.release registration
        registrations := listener.registrations.erase number
        stats := match outcome with
          | .ok _ => listener.stats
          | .error _ => { listener.stats with failed := listener.stats.failed + 1 } }) listener

/-- Ends the connections whose registrations had to make way. -/
def cancelReplaced (listener : Listener) : Listener :=
  let node := listener.registry.cancelled.foldl (fun node number => node.cancel number)
    listener.node
  sweep { listener with node := node }

def welcome (source : String) (listener : Listener) : Admission × Listener :=
  let stats := listener.stats
  match listener.registry.register listener.node.now source with
  | .error fault =>
    (.refused (.failed Message.unknownType fault.message),
      { listener with stats := { stats with rejected := stats.rejected + 1 } })
  | .ok (registration, registry) =>
    match listener.node.connect registration.number source with
    | .error fault =>
      let replaced := { listener with registry := registry }.cancelReplaced
      (.failed fault, { replaced with registry := replaced.registry.release registration })
    | .ok node =>
      let admitted := { listener with
        node := node
        registry := registry
        registrations := listener.registrations.insert registration.number registration
        stats := { stats with accepted := stats.accepted + 1 } }
      (.accepted registration.number, admitted.cancelReplaced)

def messagesOn (number : Nat) (listener : Listener) : Nat :=
  ((listener.node.connections.get? number).map (·.stats.messages)).getD 0

/-- Takes over what a connection came to. Messages are signs of life. -/
def settle (number : Nat) (listener : Listener) (progress : List Reply × Node Nat) :
    List Reply × Listener :=
  let (replies, node) := progress
  let next := { listener with node := node }
  let heard := listener.messagesOn number < next.messagesOn number
  let registry := match listener.registrations.get? number with
    | some registration => if heard then next.registry.touch node.now registration else next.registry
    | none => next.registry
  (replies, { next with registry := registry }.sweep)

def receive (number : Nat) (bytes : Bytes) (listener : Listener) : List Reply × Listener :=
  listener.settle number (listener.node.receive number bytes)

def finish (number : Nat) (listener : Listener) : List Reply × Listener :=
  listener.settle number (listener.node.finish number)

def elapse (span : Elapsed) (listener : Listener) : Listener :=
  { listener with node := listener.node.elapse span }.sweep

def stop (listener : Listener) : Listener :=
  { listener with node := listener.node.stop }.sweep

def countText (count : Nat) (what : String) : String := Decimal.natText count ++ what

def summary (listener : Listener) : List String :=
  let stats := listener.stats
  let total := "Replication listener stopped: " ++ countText stats.accepted " connections accepted, "
    ++ countText stats.failed " failed, " ++ countText stats.rejected " refused"
  let schedulers := listener.node.workers.schedulers.zipIdx.map fun (scheduler, partition) =>
    "Partition " ++ countText partition ": " ++ countText scheduler.stats.executed " commands in "
      ++ countText scheduler.stats.transactions " transactions, "
      ++ countText scheduler.stats.failed " failed"
  total :: schedulers

end Listener

end DocumentReplication
