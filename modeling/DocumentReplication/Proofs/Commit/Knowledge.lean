import DocumentReplication.Proofs.Commit.Execution

/-!
Known changes. A change is known once it was applied, stays known whatever other changes are applied
after it, and is skipped when it is applied again. Only the deletion of an attachment makes a store
forget: it leaves nothing behind.
-/

namespace DocumentReplication

open Work

variable {change other : Change} {payloads : Dictionary String Bytes} {ignored : List String}
  {before middle after first last : Transaction} {result : Option ChangeVector}
  {vector : ChangeVector}

namespace Transaction

theorem vectorAt_congr {table : Table} {key twin : String}
    (same : first.get table key = last.get table twin) :
    first.vectorAt table key = last.vectorAt table twin := by
  rw [vectorAt, same, vectorAt]

theorem homeVector_congr {home : Table} {key twin : String}
    (same : ∀ table ∈ Change.tablesOf home, first.get table key = last.get table twin) :
    first.homeVector home key = last.homeVector home twin := by
  have each (table : Table) (member : table ∈ Change.tablesOf home) :=
    vectorAt_congr (same table member)
  cases home <;> simp only [homeVector]
  case documents =>
    rw [each .documents (by simp [Change.tablesOf]), each .tombstones (by simp [Change.tablesOf])]
  all_goals exact each _ (by simp [Change.tablesOf])

/-- A store that answers at all answers keys it keeps alike with the same. -/
theorem get_of_address {table : Table} {key twin : String}
    (same : last.address table key = last.address table twin)
    (keyAllowed : last.base.backend.checkKey key = .ok ())
    (twinAllowed : last.base.backend.checkKey twin = .ok ()) :
    last.get table key = last.get table twin := by
  rw [get_eq, get_eq, keyAllowed, twinAllowed, same]

theorem checkKey_of_get {table : Table} {key : String} {found : Option Bytes}
    (read : first.get table key = .ok found) : first.base.backend.checkKey key = .ok () :=
  (get_eq_ok_iff.mp read).1

theorem checkKey_of_homeVector {home : Table} {key : String} {found : Option String}
    (read : first.homeVector home key = .ok found) :
    first.base.backend.checkKey key = .ok () := by
  have at_ {table : Table} {vector : Option String} (read : first.vectorAt table key = .ok vector) :
      first.base.backend.checkKey key = .ok () := by
    obtain ⟨_, got, -⟩ := Except.bind_eq_ok_iff.mp read
    exact checkKey_of_get got
  cases home <;> simp only [homeVector] at read
  case documents =>
    obtain ⟨_, got, -⟩ := Except.bind_eq_ok_iff.mp read
    exact at_ got
  all_goals exact at_ read

end Transaction

namespace Change

theorem Known.checkKey (known : change.Known ignored before) :
    before.base.backend.checkKey change.key = .ok () := by
  cases known with
  | noted _ found => exact Transaction.checkKey_of_get found
  | covered _ _ found _ _ => exact Transaction.checkKey_of_homeVector found

theorem Known.of_get (known : change.Known ignored first)
    (same : ∀ table ∈ tablesOf change.home, first.get table change.key = last.get table change.key) :
    change.Known ignored last := by
  cases known with
  | noted revision found =>
      have member : Table.revisionTombstones ∈ tablesOf change.home := by
        rw [home_eq_revisionTombstones.mpr revision]
        simp [tablesOf]
      exact .noted revision ((same _ member).symm.trans found)
  | covered compared read found parsed covers =>
      refine .covered compared read ?_ parsed covers
      rw [← Transaction.homeVector_congr same]
      exact found

theorem Known.sameView (known : change.Known ignored first) (same : first.SameView last) :
    change.Known ignored last :=
  known.of_get fun table _ => same.get table change.key

/-- The replication state is apart from the records. -/
theorem Known.put_state {record : Bytes} (known : change.Known ignored before)
    (put : before.put .state Partition.stateKey record = .ok after) :
    change.Known ignored after :=
  known.of_get fun _ member =>
    (Transaction.get_put_of_ne put (Transaction.address_ne fun same =>
      change.state_not_mem (same ▸ member))).symm

theorem Stands.homeVector {text : String} (stands : change.Stands text after) :
    after.homeVector change.home change.key = .ok (some text) := by
  obtain ⟨⟨bytes, made, found⟩, gone⟩ := stands
  obtain ⟨record, decoded, vector⟩ := decode_record? made
  have atTable : after.vectorAt change.table change.key = .ok (some text) := by
    rw [Transaction.vectorAt, found, Except.ok_bind]
    simp only [decoded, Except.ok_bind, vector]
    rfl
  have absent (table : Table) (displaces : change.displaced? = some table) :
      after.vectorAt table change.key = .ok none := by
    rw [Transaction.vectorAt, gone table displaces]
    rfl
  obtain ⟨header, body⟩ := change
  cases body with
  | attachmentTombstone => cases made
  | document =>
      change after.vectorAt .documents _ = _ at atTable
      simp only [home, table, Transaction.homeVector, atTable, Except.ok_bind]
      rfl
  | documentTombstone =>
      change after.vectorAt .tombstones _ = _ at atTable
      simp only [home, Transaction.homeVector, absent .documents rfl, Except.ok_bind, atTable]
  | _ => exact atTable

theorem Writes.homeVector {text : String} (writes : change.Writes text before after)
    (kept : change.kind ≠ .attachmentTombstone) :
    after.homeVector change.home change.key = .ok (some text) :=
  (writes.stands kept).homeVector

/-- A change is known after it was applied, unless it was written and deletes an attachment. -/
theorem Applied.known_self (applied : change.Applied payloads ignored before after result)
    (kept : result.isSome = true → change.kind ≠ .attachmentTombstone) :
    change.Known ignored after := by
  cases applied with
  | known known => exact known
  | written raises provides writes =>
      have kept := kept rfl
      by_cases revision : change.kind = .revisionTombstone
      · obtain ⟨⟨bytes, found, -⟩, -⟩ := writes.stored kept
        rw [table_of_revision revision] at found
        exact .noted revision found
      · obtain ⟨incoming, dropped, read, covers⟩ := raises.covers
        refine .covered revision read (writes.homeVector kept)
          (ChangeVector.parse_text raises.legible) ?_
        rwa [ChangeVector.without_of_countIn raises.plain]

theorem home_of_attachmentTombstone (deletes : change.kind = .attachmentTombstone) :
    change.home = .attachments := by
  obtain ⟨header, body⟩ := change
  cases body <;> cases deletes
  rfl

theorem displaced_of_attachmentTombstone (deletes : change.kind = .attachmentTombstone) :
    change.displaced? = some .attachments := by
  obtain ⟨header, body⟩ := change
  cases body <;> cases deletes
  rfl

theorem record_of_attachmentTombstone {text : String}
    (deletes : change.kind = .attachmentTombstone) : change.record? text = .ok none := by
  obtain ⟨header, body⟩ := change
  cases body <;> cases deletes
  rfl

theorem Writes.checkKey {text : String} (writes : change.Writes text before after) :
    before.base.backend.checkKey change.key = .ok () := by
  obtain ⟨record, between, made, stored, displaced⟩ := writes
  by_cases kept : change.kind = .attachmentTombstone
  · rw [displaced_of_attachmentTombstone kept] at displaced
    rw [record_of_attachmentTombstone kept] at made
    cases made
    obtain ⟨present, deleted⟩ := displaced
    rw [← stored]
    exact Transaction.checkKey_of_delete deleted
  · obtain ⟨bytes, rfl⟩ := exists_of_record? kept made
    exact Transaction.checkKey_of_put stored

/-- Writing over what makes another change known keeps it known: the new vector covers the one that
was stored. -/
theorem Known.of_overwritten {text : String} (known : other.Known ignored before)
    (raises : change.Raises ignored before vector) (writes : change.Writes text middle after)
    (same : text = vector.text) (kept : change.kind ≠ .attachmentTombstone)
    (home : other.home = change.home) (base : middle.base = before.base)
    (met : before.base.backend.storedKey other.key = before.base.backend.storedKey change.key) :
    other.Known ignored after := by
  subst same
  have otherAllowed := known.checkKey
  have changeAllowed := writes.checkKey
  rw [base] at changeAllowed
  have readBefore (table : Table) : before.get table other.key = before.get table change.key :=
    Transaction.get_of_address (Prod.ext rfl met) otherAllowed changeAllowed
  have backend : after.base = before.base := writes.base.trans base
  rw [← backend] at otherAllowed changeAllowed met
  have readAfter (table : Table) : after.get table other.key = after.get table change.key :=
    Transaction.get_of_address (Prod.ext rfl met) otherAllowed changeAllowed
  cases known with
  | noted revision found =>
      have twin : change.kind = .revisionTombstone := by
        rwa [← home_eq_revisionTombstones, ← home, home_eq_revisionTombstones]
      obtain ⟨⟨bytes, stored, -⟩, -⟩ := writes.stored kept
      rw [table_of_revision twin] at stored
      exact .noted revision ((readAfter _).trans stored)
  | covered compared read found parsed covers =>
      have twin : change.kind ≠ .revisionTombstone := by
        rwa [ne_eq, ← home_eq_revisionTombstones, ← home, home_eq_revisionTombstones]
      rw [home, Transaction.homeVector_congr fun table _ => readBefore table] at found
      have keeps := raises.keeps twin _ _ found parsed
      have written : after.homeVector other.home other.key = .ok (some vector.text) := by
        rw [home, Transaction.homeVector_congr fun table _ => readAfter table]
        exact writes.homeVector kept
      refine .covered compared read written (ChangeVector.parse_text raises.legible) ?_
      rw [ChangeVector.without_of_countIn raises.plain]
      exact ChangeVector.covers_trans keeps covers

/-- A change deletes the attachment that another one is about. -/
def Erases (change : Change) (backend : Backend) (other : Change) : Prop :=
  change.kind = .attachmentTombstone ∧ other.home = .attachments ∧
    backend.storedKey other.key = backend.storedKey change.key

/-- What is known stays known, unless the deletion of an attachment meets it and is written. -/
theorem Known.applied (known : other.Known ignored before)
    (applied : change.Applied payloads ignored before after result)
    (kept : result.isSome = true → ¬ change.Erases before.base.backend other) :
    other.Known ignored after := by
  have base := applied.base
  -- Changes of one home and one key share their records; all others leave each other's alone.
  by_cases met : other.home = change.home ∧
      before.base.backend.storedKey other.key = before.base.backend.storedKey change.key
  · cases applied with
    | known => exact known
    | written raises provides writes =>
        have stays : change.kind ≠ .attachmentTombstone := fun deletes =>
          kept rfl ⟨deletes, met.1.trans (home_of_attachmentTombstone deletes), met.2⟩
        exact known.of_overwritten raises writes rfl stays met.1 provides.base met.2
  · apply known.of_get
    intro table member
    have sameAddress : after.address table other.key = before.address table other.key := by
      rw [Transaction.address, base, Transaction.address]
    have apart : ∀ touched ∈ tablesOf change.home,
        before.address touched change.key ≠ before.address table other.key := by
      intro touched touchedMember same
      obtain ⟨sameTable, sameKey⟩ := Prod.ext_iff.mp same
      simp only [Transaction.address] at sameTable sameKey
      subst sameTable
      exact met ⟨home_of_shared member touchedMember, sameKey.symm⟩
    have noBlob : (before.address table other.key).1 ≠ .attachmentBlobs := fun blob =>
      other.blobs_not_mem (blob ▸ member)
    rw [Transaction.get_eq, Transaction.get_eq, base, sameAddress,
      applied.lookup_of_ne apart noBlob]

/-- A known change is skipped; only the context may note that entries were dropped. -/
theorem Known.apply {workspace : Workspace}
    (known : change.Known workspace.context.ignored workspace.transaction)
    (payloads : Dictionary String Bytes) :
    ∃ context, workspace.context.SameProgress context ∧
      attempt (change.apply payloads) workspace =
        .ok (none, { workspace with context := context }) := by
  cases known with
  | noted revision found =>
      refine ⟨workspace.context, .refl _, ?_⟩
      simp only [Change.apply, if_pos revision, applyRevision, attempt_bind,
        Workspace.attempt_fetch, found, Except.map_ok, Except.ok_bind, Option.isSome_some, if_true,
        attempt_pure]
  | @covered incoming stored dropped text compared read found parsed covers =>
      rw [← storedVector_eq] at found
      have settled : incoming.settle (stored.without workspace.context.ignored) = none :=
        ChangeVector.settle_eq_none_iff.mpr covers
      cases dropped with
      | false =>
          refine ⟨workspace.context, .refl _, ?_⟩
          simp only [Change.apply, if_neg compared, Change.resolve, attempt_bind, attempt_get,
            attempt_ofExcept, read, found, parsed, settled, Except.map_ok, Except.ok_bind,
            Bool.false_eq_true, if_false, attempt_pure]
      | true =>
          refine ⟨workspace.context.skipValidation, ⟨rfl, rfl, rfl⟩, ?_⟩
          simp only [Change.apply, if_neg compared, Change.resolve, attempt_bind, attempt_get,
            attempt_ofExcept, read, found, parsed, settled, Except.map_ok, Except.ok_bind,
            if_true, Workspace.attempt_changeContext, attempt_pure]

end Change

namespace Slice

theorem mem_changes {slice : Slice} : change ∈ slice.changes ↔ .change change ∈ slice.items := by
  simp only [Slice.changes, List.mem_filterMap]
  constructor
  · rintro ⟨item, member, same⟩
    cases item with
    | change entry =>
        cases same
        exact member
    | payload => contradiction
  · exact fun member => ⟨.change change, member, rfl⟩

/-- The changes of a run are known after it, unless a deletion of an attachment in the run meets
them. -/
theorem applyChanges_known
    {changes : List Change} {outcome result : SliceOutcome} {workspace next : Workspace}
    (done : attempt (applyChanges payloads changes outcome) workspace = .ok (result, next))
    (member : change ∈ changes) (kept : change.kind ≠ .attachmentTombstone)
    (safe : ∀ other ∈ changes, other.kind = .attachmentTombstone → change.home ≠ .attachments) :
    change.Known workspace.context.ignored next.transaction := by
  induction changes generalizing workspace outcome with
  | nil => contradiction
  | cons first rest ih =>
      obtain ⟨between, counted, step, remaining⟩ := applyChanges_cons done
      have same := step.ignored
      rcases List.mem_cons.mp member with rfl | later
      · -- It is known from here on, and the rest of the run keeps that.
        obtain ⟨written, applied, -⟩ := step
        refine applyChanges_transaction (change.Known workspace.context.ignored) remaining
          (fun other otherMember _ _ _ applied known => ?_) (applied.known_self fun _ => kept)
        rw [same] at applied
        exact known.applied applied fun _ ⟨deletes, attached, _⟩ =>
          safe other (List.mem_cons_of_mem _ otherMember) deletes attached
      · rw [← same]
        exact ih remaining later fun other otherMember =>
          safe other (List.mem_cons_of_mem _ otherMember)

end Slice

end DocumentReplication
