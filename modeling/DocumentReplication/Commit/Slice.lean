import DocumentReplication.Commit.Context
import DocumentReplication.Commit.Resolution

/-!
Applying the slice of a batch that belongs to one partition. The changes are applied in order inside
a write transaction, and what they advance goes into the replication state: the database change
vector and the etag reached by the source.
-/

namespace DocumentReplication

/-- How many changes of a slice were written, and how many were already known. -/
structure SliceOutcome where
  applied : Nat
  skipped : Nat
deriving DecidableEq, Repr, Inhabited

structure Slice where
  source : String
  lastEtag : Int64
  items : List Item
deriving DecidableEq, Repr

structure Workspace where
  context : Context
  transaction : Transaction
deriving Repr

/-- A unit of work inside a write transaction; where it fails, the transaction is given up. -/
abbrev Command (α : Type) := Work Workspace α

namespace Workspace

def onContext {α : Type} (work : Work Context α) : Command α :=
  fun workspace =>
    let (outcome, context) := work workspace.context
    (outcome, { workspace with context := context })

def changeContext (change : Context → Context) : Command Unit :=
  modify fun workspace => { workspace with context := change workspace.context }

def fetch (table : Table) (key : String) : Command (Option Bytes) := do
  ofExcept ((← get).transaction.get table key)

def put (table : Table) (key : String) (value : Bytes) : Command Unit := do
  let workspace ← get
  let transaction ← ofExcept (workspace.transaction.put table key value)
  set { workspace with transaction := transaction }

def delete (table : Table) (key : String) : Command Unit := do
  let workspace ← get
  let (_, transaction) ← ofExcept (workspace.transaction.delete table key)
  set { workspace with transaction := transaction }

def putRecord (table : Table) (key : String) (record : Bytes) : Command Unit := do
  changeContext (·.writeScratch record)
  put table key record

end Workspace

open Workspace

namespace Change

/-- The vector of an incoming change as far as it may be stored, and whether entries were dropped
from it. -/
def incoming (change : Change) (ignored : List String) : Except Fault (ChangeVector × Bool) :=
  (ChangeVector.parse change.header.changeVector).map (·.storable ignored)

/-- The vector to write a change with, unless what is stored already knows it. Once entries were
dropped, stored vectors may look newer than they are. -/
def resolve (change : Change) (stored : Option String) : Command (Option ChangeVector) := do
  let ignored := (← get).context.ignored
  let (vector, dropped) ← ofExcept (change.incoming ignored)
  if dropped then changeContext (·.skipValidation)
  match stored with
  | none => return some vector
  | some text =>
    let known ← ofExcept (ChangeVector.parse text)
    return vector.settle (known.without ignored)

def provideContent (change : Change) (payloads : Dictionary String Bytes) : Command Unit :=
  match change.body with
  | .attachment documentId _ _ hash =>
    match payloads.get? hash with
    | some content => put .attachmentBlobs hash content
    | none => do
      if (← fetch .attachmentBlobs hash).isNone then
        throw (.missingAttachment hash documentId)
  | _ => pure ()

def write (change : Change) (vector : ChangeVector) : Command Unit := do
  if let some record ← ofExcept (change.record? vector.text) then
    putRecord change.table change.key record
  if let some table := change.displaced? then
    delete table change.key

/-- A deleted revision is noted once; nothing is compared. -/
def applyRevision (change : Change) : Command (Option ChangeVector) := do
  if (← fetch .revisionTombstones change.key).isSome then
    return none
  let (vector, _) ← ofExcept (change.incoming (← get).context.ignored)
  change.write vector
  return some vector

/-- Applies a change and answers the vector it was written with, or nothing where it was already
known. -/
def apply (change : Change) (payloads : Dictionary String Bytes) :
    Command (Option ChangeVector) := do
  if change.kind = .revisionTombstone then
    change.applyRevision
  else
    let stored ← ofExcept (change.storedVector (← get).transaction)
    match ← change.resolve stored with
    | none => return none
    | some vector =>
      change.provideContent payloads
      change.write vector
      return some vector

end Change

namespace Slice

def changes (slice : Slice) : List Change :=
  slice.items.filterMap fun
    | .change change => some change
    | .payload .. => none

def payloads (slice : Slice) : Dictionary String Bytes :=
  .ofList (slice.items.filterMap fun
    | .change _ => none
    | .payload hash content => some (hash, content))

def applyChanges (payloads : Dictionary String Bytes) :
    List Change → SliceOutcome → Command SliceOutcome
  | [], outcome => pure outcome
  | change :: rest, outcome => do
    match ← change.apply payloads with
    | some vector =>
      onContext (Context.mergeVector vector)
      applyChanges payloads rest { outcome with applied := outcome.applied + 1 }
    | none => applyChanges payloads rest { outcome with skipped := outcome.skipped + 1 }

/-- Starts from the persisted vector, as far as it is not ignored. -/
def startFrom (previous : ChangeVector) : Command Unit := do
  if !previous.isEmpty then
    let ignored := (← get).context.ignored
    if 0 < previous.countIn ignored then changeContext (·.skipValidation)
    onContext (Context.mergeVector (previous.without ignored))

def advance (reached stored : Dictionary String Int64) : Dictionary String Int64 :=
  reached.entries.foldl (fun etags (source, etag) =>
    etags.insert source (match etags.get? source with
      | some current => max current etag
      | none => etag)) stored

/-- The vector to persist. Unless that is allowed, it must not lose what was persisted before. -/
def nextVector (context : Context) (previous : ChangeVector) : Except Fault (Option String) :=
  match context.vectorText with
  | none => .ok none
  | some text => do
    let current ← ChangeVector.parse text
    if !context.skipsValidation ∧ ChangeVector.compare previous current ≠ .alreadyMerged then
      throw (.internal (.vectorWouldLose current.text previous.text))
    return some text

def execute (slice : Slice) : Command SliceOutcome := do
  let stored ← ofExcept (← get).transaction.readState
  let state := stored.getD .empty
  let previous ← ofExcept (ChangeVector.parse state.changeVector)
  startFrom previous
  let outcome ← applyChanges slice.payloads slice.changes ⟨0, 0⟩
  changeContext (·.recordEtag slice.source slice.lastEtag)
  let context := (← get).context
  let vector ← ofExcept (nextVector context previous)
  let next : ReplicationState :=
    ⟨advance context.etags state.lastEtagFrom, vector.getD state.changeVector⟩
  put .state Partition.stateKey (← ofExcept (Stored.octets next))
  return outcome

end Slice

end DocumentReplication
