import DocumentReplication.Store.Partition

/-!
Write transactions. A transaction stages its writes over the committed entries: it reads its own
writes, nobody else does, and committing folds them in. A store has one writer at a time.
-/

namespace DocumentReplication

structure Transaction where
  base : Partition
  /-- The last write to each key; `none` deletes. -/
  staged : Dictionary (Table × String) (Option StoredEntry)
deriving Repr

namespace Partition

def begin (store : Partition) : Transaction := ⟨store, .empty⟩

/-- Begins a transaction unless another one is open, which is waited for in vain. The scheduler of a
store never meets another one: it is the only writer. -/
def beginUnless (busy : Bool) (patience : Elapsed) (store : Partition) :
    Except Fault Transaction :=
  if busy then .error (.transaction (.writerBusy patience)) else .ok store.begin

end Partition

namespace Transaction

def address (work : Transaction) (table : Table) (key : String) : Table × String :=
  (table, work.base.backend.storedKey key)

def lookup? (work : Transaction) (address : Table × String) : Option StoredEntry :=
  match work.staged.get? address with
  | some written => written
  | none => work.base.entries.get? address

def get (work : Transaction) (table : Table) (key : String) : Except Fault (Option Bytes) := do
  work.base.backend.checkKey key
  return (work.lookup? (work.address table key)).map (·.value)

def put (work : Transaction) (table : Table) (key : String) (value : Bytes) :
    Except Fault Transaction := do
  work.base.backend.checkKey key
  return { work with staged := work.staged.insert (work.address table key) (some ⟨key, value⟩) }

/-- Tells whether there was anything to delete. -/
def delete (work : Transaction) (table : Table) (key : String) :
    Except Fault (Bool × Transaction) := do
  work.base.backend.checkKey key
  let address := work.address table key
  return ((work.lookup? address).isSome, { work with staged := work.staged.insert address none })

def fold (entries : Dictionary (Table × String) StoredEntry)
    (write : (Table × String) × Option StoredEntry) : Dictionary (Table × String) StoredEntry :=
  match write with
  | (address, some entry) => entries.insert address entry
  | (address, none) => entries.erase address

def commit (work : Transaction) : Partition :=
  { work.base with
    entries := work.staged.entries.foldl fold work.base.entries
    commits := work.base.commits + 1 }

def readState (work : Transaction) : Except Fault (Option ReplicationState) := do
  Partition.decodeState (← work.get .state Partition.stateKey)

def writeState (work : Transaction) (state : ReplicationState) : Except Fault Transaction := do
  work.put .state Partition.stateKey (← Stored.octets state)

theorem lookup?_put {work next : Transaction} {table : Table} {key : String} {value : Bytes}
    (done : work.put table key value = .ok next) (address : Table × String) :
    next.lookup? address =
      if work.address table key = address then some ⟨key, value⟩ else work.lookup? address := by
  simp only [put, bind, Except.bind, pure, Except.pure] at done
  split at done
  · contradiction
  · cases done
    by_cases same : work.address table key = address <;>
      simp [lookup?, Dictionary.get?_insert, same]

theorem lookup?_delete {work next : Transaction} {table : Table} {key : String} {present : Bool}
    (done : work.delete table key = .ok (present, next)) (address : Table × String) :
    next.lookup? address =
      if work.address table key = address then none else work.lookup? address := by
  simp only [delete, bind, Except.bind, pure, Except.pure] at done
  split at done
  · contradiction
  · cases done
    by_cases same : work.address table key = address <;>
      simp [lookup?, Dictionary.get?_insert, same]

theorem get?_fold (entries : Dictionary (Table × String) StoredEntry)
    (write : (Table × String) × Option StoredEntry) (address : Table × String) :
    (fold entries write).get? address =
      if write.1 = address then write.2 else entries.get? address := by
  obtain ⟨target, written⟩ := write
  cases written with
  | none => exact Dictionary.get?_erase ..
  | some entry => exact Dictionary.get?_insert ..

theorem get?_foldl_fold {writes : List ((Table × String) × Option StoredEntry)}
    (distinct : (writes.map (·.1)).Nodup) (entries : Dictionary (Table × String) StoredEntry)
    (address : Table × String) :
    (writes.foldl fold entries).get? address =
      match Dictionary.find address writes with
      | some written => written
      | none => entries.get? address := by
  induction writes generalizing entries with
  | nil => rfl
  | cons write rest ih =>
      simp only [List.map_cons, List.nodup_cons] at distinct
      rw [List.foldl_cons, ih distinct.2]
      by_cases same : write.1 = address
      · have absent : Dictionary.find address rest = none :=
          Dictionary.find_eq_none_iff.mpr (same ▸ distinct.1)
        simp [Dictionary.find, same, absent, get?_fold]
      · simp [Dictionary.find, same, get?_fold]

/-- Committing makes everybody see what the transaction saw. -/
theorem entries_commit (work : Transaction) (address : Table × String) :
    work.commit.entries.get? address = work.lookup? address :=
  get?_foldl_fold work.staged.distinct work.base.entries address

end Transaction

end DocumentReplication
