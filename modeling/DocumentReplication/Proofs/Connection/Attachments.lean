import DocumentReplication.Proofs.Commit.ContentAddressing
import DocumentReplication.Proofs.Connection.Events
import DocumentReplication.Wire.Batch

/-!
Attachments of a node. Whatever its connections receive, and however their batches end, the slices
that reach a store are verified, so the store stays addressed by contents.
-/

namespace DocumentReplication

variable {workers next : Workers} {store : Partition}

theorem Workers.Follows.exists_store (follows : workers.Follows next) (member : store ∈ next.stores) :
    ∃ first ∈ workers.stores, ∃ ignored, first.Leads ignored store := by
  obtain ⟨partition, found⟩ := List.mem_iff_getElem?.mp member
  obtain ⟨first, ignored, before, runs⟩ := follows.proceeds.getElem?_stores found
  exact ⟨first, List.mem_of_getElem? before, ignored, runs.leads⟩

/-- Attachments never dangle. In a node that started with empty stores, whatever happened since, every
attachment of a partition has its content in the same partition, and every content is stored under its
hash. -/
theorem Node.stores_contentAddressed {κ : Type} [DecidableEq κ] (settings : ReplicationSettings)
    (scheduling : SchedulerSettings) (partitionCount served : Nat) (backends : List Backend)
    (events : List (Event κ)) :
    ∀ store ∈ (after events (start settings (.start scheduling partitionCount served
      (backends.map Partition.create)))).workers.stores, store.ContentAddressed := by
  intro store member
  obtain ⟨-, follows⟩ := after_spec
    (sound_start settings (.start scheduling partitionCount served (backends.map Partition.create)))
    events
  obtain ⟨first, started, ignored, leads⟩ := follows.exists_store member
  rw [start, Workers.stores_start] at started
  obtain ⟨backend, -, rfl⟩ := List.mem_map.mp started
  exact (Transaction.kept_addressed.leads leads (Transaction.addressed_create backend)).committed

/-- Two attachments, of which only the first comes with its content; what was sent is sent again
without it. -/
def photoRun : Node Nat :=
  let photo (etag : Int64) (name : String) (content : Bytes) : Item :=
    .change ⟨⟨"RV:6-A", etag, .epoch, 0⟩,
      .attachment "users/1" name "image/png" (contentHash content)⟩
  let sent : Batch := .ofPayloads 7 [photo 6 "front" [7]] [[7]]
  let missing : Batch := .ofPayloads 9 [photo 8 "back" [7, 7], photo 9 "front" [7]] []
  .after [.connect 0 "north", .arrive 0 (sent.encode ++ missing.encode ++ sent.encode), .turn 0,
      .turn 0, .turn 0, .turn 0, .turn 0, .turn 0]
    (.start .standard (.start ⟨8, 8, 1000, []⟩ 1 1 [.create .mapped]))

set_option maxRecDepth 1000 in
theorem Node.stores_contentAddressed_photoRun :
    ∃ store ∈ photoRun.workers.stores,
      (store.entriesOf .attachments).length = 1 ∧ store.ContentAddressed := by
  have recorded : photoRun.workers.stores.map (fun store => (store.entriesOf .attachments).length) =
      [1] := by decide +kernel
  obtain ⟨store, member, counted⟩ : ∃ store ∈ photoRun.workers.stores,
      (store.entriesOf .attachments).length = 1 :=
    List.mem_map.mp (recorded ▸ List.mem_singleton_self 1)
  exact ⟨store, member, counted, stores_contentAddressed _ _ _ _ [.mapped] _ store member⟩

end DocumentReplication
