import DocumentReplication.Proofs.Commit.History
import DocumentReplication.Proofs.Digest.ContentHash

/-!
Contents are addressed by their hashes. A content only enters a store out of a slice, under the hash
it was verified against, and no content ever leaves; an attachment is only recorded once its content
is there. So no record of an attachment dangles.
-/

namespace DocumentReplication

open Work

variable {ignored : List String} {change : Change} {payloads : Dictionary String Bytes}
  {before middle after work : Transaction} {text : String} {store : Partition}

theorem Dictionary.mem_of_get?_ofList {κ ν : Type} [DecidableEq κ] {entries : List (κ × ν)} {key : κ}
    {value : ν} (found : (ofList entries).get? key = some value) : (key, value) ∈ entries := by
  suffices either : ∀ table : Dictionary κ ν,
      (entries.foldl (fun table entry => table.insert entry.1 entry.2) table).get? key = some value →
        table.get? key = some value ∨ (key, value) ∈ entries from
    (either empty found).resolve_left nofun
  clear found
  induction entries with
  | nil => exact fun table found => .inl found
  | cons entry rest ih =>
      intro table found
      rcases ih _ found with placed | later
      · rw [get?_insert] at placed
        split at placed
        · rename_i same
          cases placed
          exact .inr (same ▸ List.mem_cons_self)
        · exact .inl placed
      · exact .inr (List.mem_cons_of_mem _ later)

/-- Payloads under the digests of their contents. -/
def Hashed (payloads : Dictionary String Bytes) : Prop :=
  ∀ hash content, payloads.get? hash = some content → contentHash content = hash

theorem Slice.mem_of_payloads {slice : Slice} {hash : String} {content : Bytes}
    (found : slice.payloads.get? hash = some content) : .payload hash content ∈ slice.items := by
  obtain ⟨item, member, same⟩ :=
    List.mem_filterMap.mp (Dictionary.mem_of_get?_ofList found)
  cases item with
  | change => contradiction
  | payload =>
      cases same
      exact member

theorem Slice.hashed_payloads {slice : Slice} (verified : slice.Verified) :
    Hashed slice.payloads :=
  fun _ _ found => verified _ (Slice.mem_of_payloads found)

namespace Transaction

def Provided (work : Transaction) (hash : String) : Prop :=
  ∃ blob, work.lookup? (.attachmentBlobs, hash) = some blob

/-- Contents are under their hashes, and those of attachments are there. -/
structure ContentAddressed (work : Transaction) : Prop where
  blobs : ∀ place blob, work.lookup? (.attachmentBlobs, place) = some blob →
    place = blob.key ∧ contentHash blob.value = blob.key
  attachments : ∀ place entry, work.lookup? (.attachments, place) = some entry →
    ∃ record : AttachmentRecord, Stored.decode entry.value = .ok record ∧ work.Provided record.hash

theorem ContentAddressed.of_lookup {first last : Transaction} (addressed : first.ContentAddressed)
    (same : ∀ table place, table ≠ .state →
      last.lookup? (table, place) = first.lookup? (table, place)) : last.ContentAddressed := by
  refine ⟨fun place blob found => ?_, fun place entry found => ?_⟩
  · rw [same _ _ (by decide)] at found
    exact addressed.blobs place blob found
  · rw [same _ _ (by decide)] at found
    obtain ⟨record, decoded, blob, there⟩ := addressed.attachments place entry found
    rw [← same _ _ (by decide)] at there
    exact ⟨record, decoded, blob, there⟩

theorem ContentAddressed.get {key : String} {content : Bytes} (addressed : work.ContentAddressed)
    (read : work.get .attachmentBlobs key = .ok (some content)) :
    contentHash content = key ∧ work.Provided key := by
  obtain ⟨blob, found, rfl⟩ := Option.map_eq_some_iff.mp (get_eq_ok_iff.mp read).2
  obtain ⟨place, hashed⟩ := addressed.blobs _ blob found
  have same : key = contentHash blob.value :=
    Backend.eq_of_storedKey (place.trans hashed.symm)
  refine ⟨same.symm, blob, ?_⟩
  rw [hashed, ← place] at same
  rwa [same]

theorem ContentAddressed.get_of_provided {hash : String} (addressed : work.ContentAddressed)
    (provided : work.Provided hash) :
    ∃ content, work.get .attachmentBlobs hash = .ok (some content) := by
  obtain ⟨blob, found⟩ := provided
  obtain ⟨rfl, hashed⟩ := addressed.blobs hash blob found
  refine ⟨blob.value, get_eq_ok_iff.mpr ⟨?_, ?_⟩⟩
  · rw [← hashed]
    exact Backend.checkKey_contentHash ..
  · rw [address, ← hashed, Backend.storedKey_contentHash, hashed, found]
    rfl

end Transaction

namespace Change

theorem Provides.provided {hash : String} (provides : change.Provides payloads before after)
    (there : before.Provided hash) : after.Provided hash := by
  rcases provides.cases with ⟨_, content, -, -, put⟩ | ⟨rfl, -⟩
  · unfold Transaction.Provided
    rw [Transaction.lookup?_put put]
    split
    · exact ⟨_, rfl⟩
    · exact there
  · exact there

theorem Provides.provided_hash {hash : String} (provides : change.Provides payloads before after)
    (addressed : before.ContentAddressed) (hashed : Hashed payloads) (wanted : change.hash? = some hash) :
    after.Provided hash := by
  rcases provides.cases with ⟨_, content, needed, found, put⟩ | ⟨rfl, found⟩
  · cases needed.symm.trans wanted
    obtain rfl := hashed hash content found
    refine ⟨⟨contentHash content, content⟩, ?_⟩
    rw [Transaction.lookup?_put put, Transaction.address, Backend.storedKey_contentHash, if_pos rfl]
  · obtain ⟨content, read⟩ := found hash wanted
    exact (addressed.get read).2

theorem Provides.addressed (provides : change.Provides payloads before after)
    (addressed : before.ContentAddressed) (hashed : Hashed payloads) : after.ContentAddressed := by
  refine ⟨fun place blob found => ?_, fun place entry found => ?_⟩
  · rcases provides.lookup_cases found with earlier | ⟨content, provided, rfl, there⟩
    · exact addressed.blobs place blob earlier
    · have digest := hashed blob.key _ provided
      refine ⟨?_, digest⟩
      rw [Transaction.address, ← digest, Backend.storedKey_contentHash] at there
      exact (congrArg Prod.snd there).trans digest
  · rw [provides.lookup_of_ne (by simp)] at found
    obtain ⟨record, decoded, provided⟩ := addressed.attachments place entry found
    exact ⟨record, decoded, provides.provided provided⟩

theorem Writes.lookup_blobs (writes : change.Writes text before after) (place : String) :
    after.lookup? (.attachmentBlobs, place) = before.lookup? (.attachmentBlobs, place) := by
  refine writes.lookup_of_ne fun table member same => change.blobs_not_mem ?_
  have owner : table = .attachmentBlobs := congrArg Prod.fst same
  exact owner ▸ member

theorem decode_attachment {bytes : Bytes} (owner : change.table = .attachments)
    (made : change.record? text = .ok (some bytes)) :
    ∃ (record : AttachmentRecord) (hash : String), Stored.decode bytes = .ok record ∧
      change.hash? = some hash ∧ record.hash = hash := by
  obtain ⟨header, body⟩ := change
  cases body with
  | attachment documentId name contentType hash =>
      simp only [record?, Except.map_eq_ok_iff, Option.some.injEq] at made
      obtain ⟨octets, stored, rfl⟩ := made
      exact ⟨_, hash, Stored.decode_octets stored, rfl, rfl⟩
  | attachmentTombstone => cases made
  | _ => cases owner

theorem Applied.addressed {result : Option ChangeVector}
    (applied : change.Applied payloads ignored before after result)
    (addressed : before.ContentAddressed) (hashed : Hashed payloads) : after.ContentAddressed := by
  cases applied with
  | known => exact addressed
  | written raises provides writes =>
      -- The content is stored first, and the record does not touch the table of contents.
      rename_i middle _
      have between := provides.addressed addressed hashed
      have provided {hash : String} (there : middle.Provided hash) : after.Provided hash := by
        obtain ⟨blob, found⟩ := there
        exact ⟨blob, (writes.lookup_blobs hash).trans found⟩
      refine ⟨fun place blob found => ?_, fun place entry found => ?_⟩
      · rw [writes.lookup_blobs] at found
        exact between.blobs place blob found
      · rcases writes.lookup_cases found with earlier | ⟨made, -, there⟩
        · obtain ⟨record, decoded, held⟩ := between.attachments place entry earlier
          exact ⟨record, decoded, provided held⟩
        · have owner : change.table = .attachments := (congrArg Prod.fst there).symm
          obtain ⟨record, hash, decoded, wanted, rfl⟩ := decode_attachment owner made
          exact ⟨record, decoded, provided (provides.provided_hash addressed hashed wanted)⟩

end Change

theorem Transaction.kept_addressed :
    Transaction.Kept Slice.Verified ignored Transaction.ContentAddressed where
  view same addressed := addressed.of_lookup fun _ _ _ => (same.lookup _).symm
  execute verified _ done addressed := by
    obtain ⟨stored, previous, started, applied, text, record, executed⟩ :=
      Slice.attempt_execute_iff.mp done
    have left : applied.transaction.ContentAddressed :=
      executed.changes_keep Transaction.ContentAddressed
        (fun _ _ _ _ _ step held => step.addressed held (Slice.hashed_payloads verified)) addressed
    apply left.of_lookup
    intro table place apart
    rw [Transaction.lookup?_put executed.put, if_neg]
    exact fun same => apart (congrArg Prod.fst same).symm

theorem Transaction.addressed_create (backend : Backend) :
    (Partition.create backend).begin.ContentAddressed := by
  refine ⟨fun place blob found => ?_, fun place entry found => ?_⟩ <;> cases found

/-- Every attachment of a store has its content in the same store, and contents are stored under
their hashes. -/
structure Partition.ContentAddressed (store : Partition) : Prop where
  blobs : ∀ entry ∈ store.entriesOf .attachmentBlobs, contentHash entry.value = entry.key
  reads : ∀ key content, store.read .attachmentBlobs key = .ok (some content) →
    contentHash content = key
  attachments : ∀ entry ∈ store.entriesOf .attachments, ∃ record : AttachmentRecord,
    Stored.decode entry.value = .ok record ∧
      ∃ content, store.read .attachmentBlobs record.hash = .ok (some content)

theorem Transaction.ContentAddressed.committed (addressed : store.begin.ContentAddressed) :
    store.ContentAddressed where
  blobs entry member := by
    obtain ⟨place, found⟩ := Partition.exists_lookup member
    exact (addressed.blobs place entry found).2
  reads key content read := (addressed.get read).1
  attachments entry member := by
    obtain ⟨place, found⟩ := Partition.exists_lookup member
    obtain ⟨record, decoded, provided⟩ := addressed.attachments place entry found
    exact ⟨record, decoded, addressed.get_of_provided provided⟩

end DocumentReplication
