import DocumentReplication.Proofs.Commit.History
import DocumentReplication.Proofs.Commit.Knowledge

/-!
Which document a record belongs to. The key of a record says it: a document and its tombstone are
kept under its id, everything else of it under a key that begins with its id, in lowercase. So the
documents that a store has records of are those its changes were about, and a document is live or
deleted, but not both.
-/

namespace DocumentReplication

open Work

variable {ignored : List String} {change : Change} {payloads : Dictionary String Bytes}
  {before after : Transaction} {table : Table} {id key place : String} {entry : StoredEntry}
  {mine : String → Prop}

namespace Table

/-- The tables whose records belong to documents. -/
def owned : List Table :=
  [documents, tombstones, attachments, counters, timeSeries, timeSeriesRanges]

theorem ne_state_of_owned (owned : table ∈ owned) : table ≠ state := by
  rintro rfl
  exact absurd owned (by decide)

theorem ne_blobs_of_owned (owned : table ∈ owned) : table ≠ attachmentBlobs := by
  rintro rfl
  exact absurd owned (by decide)

/-- The id of the document that a record belongs to. -/
def ownerOf : (table : Table) → table.Record → Option String
  | documents, record => some (DocumentRecord.id record)
  | tombstones, record => some (TombstoneRecord.id record)
  | attachments, record => some (AttachmentRecord.documentId record)
  | counters, record => some (CounterRecord.documentId record)
  | timeSeries, record => some (TimeSeriesRecord.documentId record)
  | timeSeriesRanges, record => some (DeletedRangeRecord.documentId record)
  | attachmentBlobs, _ | revisionTombstones, _ | state, _ => none

/-- The id of the document that stored octets are a record of. -/
def owner? (table : Table) (bytes : Bytes) : Option String :=
  (table.decode bytes).toOption.bind table.ownerOf

/-- A document may keep a record of this table under a key. -/
def Files (table : Table) (id key : String) : Prop :=
  if table ∈ [documents, tombstones] then key = Text.lowercase id
  else ∃ rest, key = Text.lowercase id ++ "|" ++ rest

end Table

namespace Change

theorem owner_of_record? {text : String} {bytes : Bytes}
    (made : change.record? text = .ok (some bytes)) :
    change.table.owner? bytes = change.documentId? := by
  obtain ⟨header, body⟩ := change
  cases body with
  | attachmentTombstone => cases made
  | _ =>
      simp only [record?, Except.map_eq_ok_iff, Option.some.injEq] at made
      obtain ⟨octets, stored, rfl⟩ := made
      rw [Table.owner?, Change.table, Table.decode, Stored.decode_octets stored]
      rfl

theorem exists_documentId (owned : table ∈ Table.owned) (member : table ∈ tablesOf change.home) :
    ∃ id, change.documentId? = some id := by
  obtain ⟨header, body⟩ := change
  cases body with
  | revisionTombstone =>
      obtain rfl : table = .revisionTombstones := List.mem_singleton.mp member
      exact absurd owned (by decide)
  | _ => exact ⟨_, rfl⟩

theorem files_key (about : change.documentId? = some id) (member : table ∈ tablesOf change.home) :
    table.Files id change.key := by
  obtain ⟨header, body⟩ := change
  cases body <;> cases about <;>
    simp only [home, Change.table, tablesOf, List.mem_cons, List.not_mem_nil, or_false] at member
  case document | documentTombstone => rcases member with rfl | rfl <;> exact rfl
  all_goals
    subst member
    simp [Table.Files, key, joinKey]

theorem tables_of_document (document : change.home = .documents) :
    (change.table = .documents ∧ change.displaced? = some .tombstones) ∨
    (change.table = .tombstones ∧ change.displaced? = some .documents) := by
  obtain ⟨header, body⟩ := change
  cases body <;> simp_all [home, Change.table, displaced?]

end Change

/-- Records of documents are kept under keys of theirs, all of these are documents of mine, and no
document is both live and deleted. -/
structure Transaction.Filed (mine : String → Prop) (work : Transaction) : Prop where
  placed : ∀ table ∈ Table.owned, ∀ place entry, work.lookup? (table, place) = some entry →
    place = work.base.backend.storedKey entry.key ∧
      ∃ id, table.owner? entry.value = some id ∧ table.Files id entry.key ∧ mine id
  exclusive : ∀ place, work.lookup? (.documents, place) = none ∨
    work.lookup? (.tombstones, place) = none

namespace Transaction.Filed

theorem of_lookup (filed : before.Filed mine) (backend : after.base.backend = before.base.backend)
    (same : ∀ table ∈ Table.owned, ∀ place,
      after.lookup? (table, place) = before.lookup? (table, place)) : after.Filed mine := by
  refine ⟨fun table owned place entry found => ?_, fun place => ?_⟩
  · rw [same table owned] at found
    rw [backend]
    exact filed.placed table owned place entry found
  · rw [same _ (by decide), same _ (by decide)]
    exact filed.exclusive place

/-- A document that is written is live or deleted afterwards, whatever it was before. -/
theorem exclusive_of_writes {text : String} (filed : before.Filed mine)
    (writes : change.Writes text before after) :
    after.lookup? (.documents, place) = none ∨ after.lookup? (.tombstones, place) = none := by
  have backend : after.base.backend = before.base.backend := congrArg _ writes.base
  by_cases meets : change.home = .documents ∧ before.base.backend.storedKey change.key = place
  · obtain ⟨document, rfl⟩ := meets
    have kept : change.kind ≠ .attachmentTombstone := by
      intro deletes
      rw [Change.home_of_attachmentTombstone deletes] at document
      contradiction
    have gone (table : Table) (displaced : change.displaced? = some table) :
        after.lookup? (table, before.base.backend.storedKey change.key) = none := by
      have absent := (get_eq_ok_iff.mp ((writes.stands kept).alone table displaced)).2
      rw [Option.map_eq_none_iff, Transaction.address, backend] at absent
      exact absent
    rcases Change.tables_of_document document with ⟨-, displaced⟩ | ⟨-, displaced⟩
    · exact .inr (gone _ displaced)
    · exact .inl (gone _ displaced)
  · have same (table : Table) (member : table ∈ [Table.documents, .tombstones]) :
        after.lookup? (table, place) = before.lookup? (table, place) := by
      apply writes.lookup_of_ne
      intro touched touchedMember there
      obtain ⟨rfl, rfl⟩ := Prod.ext_iff.mp there
      exact meets ⟨Change.home_of_mem (by decide) touchedMember member, rfl⟩
    rw [same _ (by simp), same _ (by simp)]
    exact filed.exclusive place

theorem writes {text : String} (filed : before.Filed mine) (writes : change.Writes text before after)
    (own : ∀ id, change.documentId? = some id → mine id) : after.Filed mine := by
  refine ⟨fun table owned place entry found => ?_, fun _ => filed.exclusive_of_writes writes⟩
  rw [writes.base]
  rcases writes.lookup_cases found with earlier | ⟨made, sameKey, there⟩
  · exact filed.placed table owned place entry earlier
  · obtain ⟨rfl, rfl⟩ := Prod.ext_iff.mp there
    obtain ⟨id, about⟩ := Change.exists_documentId owned change.table_mem
    rw [sameKey]
    exact ⟨rfl, id, (Change.owner_of_record? made).trans about,
      Change.files_key about change.table_mem, own id about⟩

theorem applied {written : Option ChangeVector} (filed : before.Filed mine)
    (applied : change.Applied payloads ignored before after written)
    (own : ∀ id, change.documentId? = some id → mine id) : after.Filed mine := by
  cases applied with
  | known => exact filed
  | written raises provides writes =>
      have provided := filed.of_lookup (congrArg _ provides.base) fun table owned place =>
        provides.lookup_of_ne (Table.ne_blobs_of_owned owned)
      exact provided.writes writes own

theorem put_state {record : Bytes} (filed : before.Filed mine)
    (put : before.put .state Partition.stateKey record = .ok after) : after.Filed mine := by
  refine filed.of_lookup (congrArg _ (base_put put)) fun table owned place => ?_
  rw [lookup?_put put, if_neg fun same => Table.ne_state_of_owned owned (congrArg Prod.fst same).symm]

end Transaction.Filed

/-- All changes are about documents of mine. -/
def Slice.About (mine : String → Prop) (slice : Slice) : Prop :=
  ∀ change ∈ slice.changes, ∀ id ∈ change.documentId?, mine id

instance (slice : Slice) [DecidablePred mine] : Decidable (slice.About mine) :=
  inferInstanceAs (Decidable (∀ change ∈ slice.changes, ∀ id ∈ change.documentId?, mine id))

theorem Transaction.filed_create (backend : Backend) (mine : String → Prop) :
    (Partition.create backend).begin.Filed mine :=
  ⟨fun _ _ _ _ found => (nomatch found), fun _ => .inl rfl⟩

theorem Transaction.kept_filed (mine : String → Prop) (ignored : List String) :
    Transaction.Kept (Slice.About mine) ignored (Transaction.Filed mine) where
  view same filed := filed.of_lookup same.backend.symm fun _ _ _ => (same.lookup _).symm
  execute about _ done filed := by
    obtain ⟨stored, previous, started, applied, text, record, executed⟩ :=
      Slice.attempt_execute_iff.mp done
    refine Filed.put_state (executed.changes_keep (Filed mine) ?_ filed) executed.put
    intro change member _ _ _ applied held
    exact held.applied applied (about change member)

end DocumentReplication
