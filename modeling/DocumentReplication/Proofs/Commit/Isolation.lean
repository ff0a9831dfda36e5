import DocumentReplication.Proofs.Commit.Merging
import DocumentReplication.Proofs.Commit.Ownership

/-!
Isolation of documents. A slice leaves the records of a document alone unless a change of it is about
that document. What a document keeps beside itself has keys that join its id and further names with
bars, and bars in ids and names are not told apart from these; so an attachment, a counter or a time
series may be taken for one of another document, but only where the id of one of them goes on with a
bar after the id of the other.
-/

namespace DocumentReplication

open Work

variable {ignored : List String} {table : Table} {id other key place : String} {entry : StoredEntry}
  {store next : Partition} {slice : Slice} {outcome : SliceOutcome}

/-- The id of one document goes on with a bar after the id of another one. -/
def Entangled (id other : String) : Prop :=
  (Text.lowercase id ++ "|").toList <+: (Text.lowercase other).toList ∨
  (Text.lowercase other ++ "|").toList <+: (Text.lowercase id).toList

instance (id other : String) : Decidable (Entangled id other) :=
  inferInstanceAs (Decidable (_ <+: _ ∨ _ <+: _))

/-- Texts that are cut at the same character are the same up to it, or one of them has it earlier. -/
theorem List.eq_or_prefix_of_append_cons {α : Type} {first second rest others : List α} {mark : α}
    (same : first ++ mark :: rest = second ++ mark :: others) :
    first = second ∨ first ++ [mark] <+: second ∨ second ++ [mark] <+: first := by
  rcases List.append_eq_append_iff.mp same with ⟨between, rfl, more⟩ | ⟨between, rfl, more⟩
  · cases between with
    | nil => exact .inl (List.append_nil first).symm
    | cons head tail =>
        obtain ⟨rfl, -⟩ := List.cons_eq_cons.mp more
        exact .inr (.inl ⟨tail, by simp⟩)
  · cases between with
    | nil => exact .inl (List.append_nil second)
    | cons head tail =>
        obtain ⟨rfl, -⟩ := List.cons_eq_cons.mp more
        exact .inr (.inr ⟨tail, by simp⟩)

/-- Only entangled documents share keys, and not even these share the key of a document. -/
theorem Table.Files.cases (first : table.Files id key) (second : table.Files other key) :
    Text.lowercase id = Text.lowercase other ∨
    table ∉ [documents, tombstones] ∧ Entangled id other := by
  unfold Table.Files at first second
  split at first
  · rename_i alone
    rw [if_pos alone] at second
    exact .inl (first.symm.trans second)
  · rename_i beside
    rw [if_neg beside] at second
    obtain ⟨rest, rfl⟩ := first
    obtain ⟨others, same⟩ := second
    have letters := congrArg String.toList same
    simp only [String.toList_append, List.append_assoc] at letters
    rcases List.eq_or_prefix_of_append_cons letters with equal | continues
    · exact .inl (String.toList_injective equal)
    · refine .inr ⟨beside, ?_⟩
      rw [Entangled, String.toList_append, String.toList_append]
      exact continues

/-- A slice leaves alone whatever is not kept under the key of one of its changes. -/
theorem Slice.lookup_transact {address : Table × String}
    (done : Scheduler.transact ignored slice.execute store = .ok (outcome, next))
    (records : address.1 ≠ .state) (noBlob : address.1 ≠ .attachmentBlobs)
    (apart : ∀ change ∈ slice.changes, ∀ touched ∈ Change.tablesOf change.home,
      store.begin.address touched change.key ≠ address) :
    next.begin.lookup? address = store.begin.lookup? address := by
  obtain ⟨workspace, ran, rfl⟩ := Scheduler.transact_eq_ok_iff.mp done
  obtain ⟨stored, previous, started, applied, text, record, executed⟩ :=
    Slice.attempt_execute_iff.mp ran
  have kept := executed.changes_keep (fun work => work.base = store ∧
    work.lookup? address = store.begin.lookup? address) ?_ ⟨rfl, rfl⟩
  · rw [workspace.transaction.sameView_begin_commit.lookup, Transaction.lookup?_put executed.put,
      if_neg fun same => records (congrArg Prod.fst same).symm, kept.2]
  · intro change member before after written done ⟨base, held⟩
    refine ⟨done.base.trans base, (done.lookup_of_ne (fun touched there => ?_) noBlob).trans held⟩
    rw [Transaction.address, base]
    exact apart change member touched there

namespace Partition

theorem Reachable.filed (reachable : store.Reachable) : store.begin.Filed fun _ => True := by
  induction reachable with
  | created backend => exact Transaction.filed_create backend _
  | committed _ done ih =>
      exact (Transaction.kept_filed _ _).transact (fun _ _ _ _ => trivial) done ih
  | shared _ done ih =>
      exact (Transaction.kept_filed _ _).transact_runAll (fun _ _ _ _ _ _ => trivial) done ih

/-- Documents are isolated from each other. A slice whose changes are all about other documents
leaves every record of a document as it was: the document or its tombstone always, and what it keeps
beside itself unless one of the others is entangled with it. A mapped store must also tell their keys
apart, which it only knows by their digests if they are long. -/
theorem documents_isolated (reachable : store.Reachable)
    (done : Scheduler.transact ignored slice.execute store = .ok (outcome, next))
    (owned : table ∈ Table.owned) (found : store.entries.get? (table, place) = some entry)
    (owner : table.owner? entry.value = some id)
    (others : slice.About fun other => Text.lowercase other ≠ Text.lowercase id)
    (untangled : table ∈ [Table.documents, .tombstones] ∨
      slice.About fun other => ¬ Entangled other id)
    (distinct : ∀ change ∈ slice.changes,
      store.backend.storedKey change.key = store.backend.storedKey entry.key →
        change.key = entry.key) :
    next.entries.get? (table, place) = some entry := by
  obtain ⟨rfl, again, sameOwner, files, -⟩ := reachable.filed.placed table owned place entry found
  obtain rfl : id = again := Option.some.inj (owner.symm.trans sameOwner)
  have apart : ∀ change ∈ slice.changes, ∀ touched ∈ Change.tablesOf change.home,
      store.begin.address touched change.key ≠ (table, store.backend.storedKey entry.key) := by
    intro change member touched there same
    obtain ⟨rfl, sameKey⟩ := Prod.ext_iff.mp same
    obtain ⟨other, about⟩ := Change.exists_documentId owned there
    have otherFiles := Change.files_key about there
    rw [distinct change member sameKey] at otherFiles
    rcases otherFiles.cases files with equal | ⟨beside, entangled⟩
    · exact others change member other about equal
    · exact (untangled.resolve_left beside) change member other about entangled
  exact (Slice.lookup_transact done (Table.ne_state_of_owned owned) (Table.ne_blobs_of_owned owned)
    apart).trans found

def ownCounter : Slice :=
  ⟨"north", 5, [.change ⟨⟨"RV:5-A", 5, .epoch, 0⟩, .counter "Users/1" "likes" [1]⟩]⟩

/-- A document, its deletion and a counter of the same name, and a counter of a document whose id goes
on with a bar after the one before. -/
def otherChanges : Slice := ⟨"south", 9, [
  .change ⟨⟨"RV:6-B", 6, .epoch, 0⟩, .document "users/10" "users" [2]⟩,
  .change ⟨⟨"RV:7-B", 7, .epoch, 0⟩, .counter "users/10" "likes" [3]⟩,
  .change ⟨⟨"RV:8-B", 8, .epoch, 0⟩, .documentTombstone "users/10" "users"⟩,
  .change ⟨⟨"RV:9-B", 9, .epoch, 0⟩, .counter "users/10|likes" "a" [4]⟩]⟩

theorem documents_isolated_ownCounter :
    ∃ outcome store next entry,
      Scheduler.transact [] ownCounter.execute (.create .mapped) = .ok (outcome, store) ∧
      Scheduler.transact ["A"] otherChanges.execute store = .ok (⟨4, 0⟩, next) ∧
      store.entries.get? (.counters, "users/1|likes") = some entry ∧
      Table.counters.owner? entry.value = some "Users/1" ∧
      next.entries.get? (.counters, "users/1|likes") = some entry := by
  have run : (do
      let (_, store) ← Scheduler.transact [] ownCounter.execute (.create .mapped)
      let (others, _) ← Scheduler.transact ["A"] otherChanges.execute store
      return ((others, store.backend),
        (store.entries.get? (.counters, "users/1|likes")).map fun entry =>
          (entry.key, Table.counters.owner? entry.value))) =
      Except.ok ((⟨4, 0⟩, .mapped), some ("users/1|likes", some "Users/1")) := by
    decide +kernel
  obtain ⟨⟨outcome, store⟩, first, run⟩ := Except.bind_eq_ok_iff.mp run
  obtain ⟨⟨others, next⟩, second, run⟩ := Except.bind_eq_ok_iff.mp run
  obtain ⟨kept, there⟩ := Prod.mk.inj (Except.ok.inj run)
  obtain ⟨rfl, mapped⟩ := Prod.mk.inj kept
  obtain ⟨entry, found, same⟩ := Option.map_eq_some_iff.mp there
  obtain ⟨key, owner⟩ := Prod.mk.inj same
  have distinct : ∀ change ∈ otherChanges.changes,
      Backend.mapped.storedKey change.key = Backend.mapped.storedKey "users/1|likes" →
        change.key = "users/1|likes" := by decide +kernel
  refine ⟨outcome, store, next, entry, first, second, found, owner,
    documents_isolated (.committed (.created .mapped) first) second (by decide) found owner
      (by decide +kernel) (.inr (by decide +kernel)) ?_⟩
  rw [mapped, key]
  exact distinct

def barredPhoto : Slice := ⟨"north", 5, [.payload "h" [7],
  .change ⟨⟨"RV:5-A", 5, .epoch, 0⟩, .attachment "users/1" "a|photo" "image/png" "h"⟩]⟩

def otherPhotoDeletion : Slice :=
  ⟨"north", 6, [.change ⟨⟨"RV:6-A", 6, .epoch, 0⟩, .attachmentTombstone "users/1|a" "photo"⟩]⟩

/-- The deletion of a photo takes the photo of another document, entangled with the first. -/
theorem entangled_photo_deleted :
    ¬ ∀ (store next : Partition) (ignored : List String) (slice : Slice) (outcome : SliceOutcome)
      (table : Table) (place id : String) (entry : StoredEntry), store.Reachable →
      Scheduler.transact ignored slice.execute store = .ok (outcome, next) →
      table ∈ Table.owned → store.entries.get? (table, place) = some entry →
      table.owner? entry.value = some id →
      (slice.About fun other => Text.lowercase other ≠ Text.lowercase id) →
      next.entries.get? (table, place) = some entry := by
  intro isolated
  have run : (do
      let (_, store) ← Scheduler.transact [] barredPhoto.execute (.create .memory)
      let (_, next) ← Scheduler.transact [] otherPhotoDeletion.execute store
      let address := (Table.attachments, "users/1|a|photo")
      return ((store.entries.get? address).map fun entry => Table.attachments.owner? entry.value,
        next.entries.get? address)) = Except.ok (some (some "users/1"), none) := by
    decide +kernel
  obtain ⟨⟨_, store⟩, first, run⟩ := Except.bind_eq_ok_iff.mp run
  obtain ⟨⟨outcome, next⟩, second, run⟩ := Except.bind_eq_ok_iff.mp run
  obtain ⟨there, gone⟩ := Prod.mk.inj (Except.ok.inj run)
  obtain ⟨entry, found, owner⟩ := Option.map_eq_some_iff.mp there
  have others : otherPhotoDeletion.About fun other =>
      Text.lowercase other ≠ Text.lowercase "users/1" := by decide +kernel
  have kept := isolated store next [] otherPhotoDeletion outcome .attachments _ "users/1" entry
    (.committed (.created .memory) first) second (by decide) found owner others
  rw [gone] at kept
  contradiction

end Partition

end DocumentReplication
