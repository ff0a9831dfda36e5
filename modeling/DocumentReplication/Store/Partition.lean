import DocumentReplication.Digest.ContentHash
import DocumentReplication.Store.Record

/-!
The store of one partition: the committed entries of its tables.

A store in memory takes any key. A mapped store takes no empty key, and keeps an entry with a long
key under a digest of the key; the entry remembers the key it was put under.
-/

namespace DocumentReplication

inductive Backend where
  | memory
  | mapped
deriving DecidableEq, Repr

namespace Backend

/-- The longest key that a mapped store keeps as it is, in octets. -/
def maxKeySize : Nat := 511

def storedKey (backend : Backend) (key : String) : String :=
  match backend with
  | memory => key
  | mapped =>
    if key.utf8ByteSize ≤ maxKeySize then key else "sha256:" ++ contentHash (Text.utf8 key)

def checkKey (backend : Backend) (key : String) : Except Fault Unit :=
  if backend = mapped ∧ key.isEmpty then .error (.database .emptyKey) else .ok ()

end Backend

structure StoredEntry where
  key : String
  value : Bytes
deriving DecidableEq, Repr

structure Partition where
  backend : Backend
  entries : Dictionary (Table × String) StoredEntry
  commits : Nat
deriving Repr

namespace Partition

def create (backend : Backend) : Partition := ⟨backend, .empty, 0⟩

/-- What is found when the store is opened again: memory does not last. -/
def reopen (store : Partition) : Partition :=
  match store.backend with
  | .memory => create .memory
  | .mapped => store

def read (store : Partition) (table : Table) (key : String) : Except Fault (Option Bytes) := do
  store.backend.checkKey key
  return (store.entries.get? (table, store.backend.storedKey key)).map (·.value)

def entriesOf (store : Partition) (table : Table) : List StoredEntry :=
  store.entries.entries.filterMap fun ((owner, _), entry) =>
    if owner = table then some entry else none

def stateKey : String := "replication-state"

def decodeState : Option Bytes → Except Fault (Option ReplicationState)
  | none => .ok none
  | some bytes => (Stored.decode bytes).map some

def readState (store : Partition) : Except Fault (Option ReplicationState) := do
  decodeState (← store.read .state stateKey)

end Partition

end DocumentReplication
