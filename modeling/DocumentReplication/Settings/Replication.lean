import DocumentReplication.Commit.Scheduler
import DocumentReplication.Settings.Document
import DocumentReplication.Settings.Endpoint

/-!
The settings of a replication node: who it is, where it listens, what it accepts and how long it
waits. `check` tells whether settings fit together, and the first thing that is wrong with them.
-/

namespace DocumentReplication

structure ReplicationSettings where
  /-- What the node calls itself in its replies. -/
  nodeTag : String
  bindAddress : Endpoint
  partitionCount : Nat
  maxFrame : Nat
  maxItems : Nat
  maxStreams : Nat
  maxAttachment : Nat
  partitionQueueCapacity : Nat
  scheduler : SchedulerSettings
  /-- How long after its last message a connection keeps others from the same source away. -/
  activeTimeoutMillis : Nat
  idleTimeoutMillis : Nat
deriving DecidableEq, Repr

open SettingsDocument

namespace SchedulerSettings

def standard : SchedulerSettings := ⟨64, 1024, 15000, []⟩

instance : Inhabited SchedulerSettings := ⟨standard⟩

def fieldNames : List String :=
  ["max_batch_size", "queue_capacity", "write_timeout_ms", "ignored_db_ids"]

def ofDocument? {δ : Type} [SettingsDocument δ] (document : δ) : Option SchedulerSettings := do
  match ← fields? fieldNames document with
  | [maxBatch, queueCapacity, writeTimeout, ignored] =>
    return ⟨← setting natural? standard.maxBatch maxBatch,
      ← setting natural? standard.queueCapacity queueCapacity,
      ← setting natural? standard.writeTimeoutMillis writeTimeout,
      (← setting texts? standard.ignoredIds ignored).eraseDups⟩
  | _ => none

end SchedulerSettings

namespace ReplicationSettings

def standard : ReplicationSettings where
  nodeTag := "A"
  bindAddress := ⟨.four [0, 0, 0, 0], 15480⟩
  partitionCount := 1
  maxFrame := 64 * 1024 * 1024
  maxItems := 16 * 1024
  maxStreams := 1024
  maxAttachment := 256 * 1024 * 1024
  partitionQueueCapacity := 4
  scheduler := .standard
  activeTimeoutMillis := 30000
  idleTimeoutMillis := 60000

instance : Inhabited ReplicationSettings := ⟨standard⟩

def fieldNames : List String :=
  ["node_tag", "bind_addr", "partition_count", "max_frame_size", "max_items_per_batch",
   "max_attachment_streams_per_batch", "max_attachment_size", "partition_queue_capacity", "merger",
   "active_connection_timeout_ms", "idle_timeout_ms"]

def ofDocument? {δ : Type} [SettingsDocument δ] (document : δ) : Option ReplicationSettings := do
  match ← fields? fieldNames document with
  | [nodeTag, bindAddress, partitionCount, maxFrame, maxItems, maxStreams, maxAttachment,
      partitionQueueCapacity, scheduler, activeTimeout, idleTimeout] =>
    return {
      nodeTag := ← setting text? standard.nodeTag nodeTag
      bindAddress := ← setting (fun document => text? document >>= Endpoint.ofText?)
        standard.bindAddress bindAddress
      partitionCount := ← setting natural? standard.partitionCount partitionCount
      maxFrame := ← setting natural? standard.maxFrame maxFrame
      maxItems := ← setting natural? standard.maxItems maxItems
      maxStreams := ← setting natural? standard.maxStreams maxStreams
      maxAttachment := ← setting natural? standard.maxAttachment maxAttachment
      partitionQueueCapacity :=
        ← setting natural? standard.partitionQueueCapacity partitionQueueCapacity
      scheduler := ← setting SchedulerSettings.ofDocument? standard.scheduler scheduler
      activeTimeoutMillis := ← setting natural? standard.activeTimeoutMillis activeTimeout
      idleTimeoutMillis := ← setting natural? standard.idleTimeoutMillis idleTimeout }
  | _ => none

/-- Whether a text could be confused with its surroundings in a change vector. -/
def holdsAny (separators : List Char) (text : String) : Bool :=
  text.toList.any separators.contains

def namesInstance (text : String) : Bool :=
  !text.isEmpty && !holdsAny [':', ','] text

def check (settings : ReplicationSettings) : Except SettingsFault Unit := do
  if settings.nodeTag.isEmpty then throw .noNodeTag
  if holdsAny [':', '-', ','] settings.nodeTag then throw (.nodeTagWithSeparator settings.nodeTag)
  if settings.partitionCount = 0 then throw .noPartitions
  if settings.maxFrame < 1024 then throw .framesTooSmall
  if settings.maxItems = 0 then throw .noItems
  if settings.partitionQueueCapacity = 0 then throw .noPartitionQueue
  if settings.scheduler.maxBatch = 0 then throw .noCommands
  if settings.scheduler.queueCapacity = 0 then throw .noCommandQueue
  if settings.activeTimeoutMillis = 0 then throw .neverActive
  if settings.idleTimeoutMillis = 0 then throw .neverIdle
  if let some instanceId := settings.scheduler.ignoredIds.find? (!namesInstance ·) then
    throw (.notAnInstance instanceId)

end ReplicationSettings

end DocumentReplication
