import DocumentReplication.Proofs.Commit.Log
import DocumentReplication.Proofs.Commit.Retention

/-!
Late changes. Once a change was applied, whatever else is applied, a change of the same record that
it covers is skipped and leaves the record alone. The deletion of an attachment is the exception: its
vector is not kept anywhere, so an older attachment that arrives late is taken for a new one.
-/

namespace DocumentReplication

variable {ignored : List String} {backend : Backend} {first last work : Transaction}
  {change other : Change} {log rest past between future : List LogEntry}

namespace LogEntry.Leads

theorem sameBackend (leads : Leads ignored first log last) : last.base.backend = first.base.backend := by
  induction leads with
  | nil same => exact same.backend.symm
  | cons meets genuine _ ih =>
      obtain ⟨payloads, applied⟩ := genuine.applied
      rw [ih, applied.base, meets.backend]

theorem split (leads : Leads ignored first (log ++ rest) last) :
    ∃ middle, Leads ignored first log middle ∧ Leads ignored middle rest last := by
  induction log generalizing first with
  | nil => exact ⟨first, .nil (.of_sameView (.refl first)), leads⟩
  | cons entry log ih =>
      cases leads with
      | cons meets genuine leads =>
          obtain ⟨middle, one, two⟩ := ih leads
          exact ⟨middle, .cons meets genuine one, two⟩

/-- What is known stays known along a log in which no deletion of an attachment it is about is
written. -/
theorem known (leads : Leads ignored first log last) (known : change.Known ignored first)
    (kept : ∀ entry ∈ log, entry.written.isSome = true →
      ¬ entry.change.Erases first.base.backend change) :
    change.Known ignored last := by
  induction leads with
  | nil same => exact known.sameRecords same
  | @cons first last entry log meets genuine leads ih =>
      obtain ⟨payloads, applied⟩ := genuine.applied
      have here := kept entry List.mem_cons_self
      rw [meets.backend] at here kept
      refine ih ((known.sameRecords meets).applied applied here) fun later member => ?_
      rw [applied.base]
      exact kept later (List.mem_cons_of_mem _ member)

end LogEntry.Leads

namespace Change

instance : Decidable (change.Erases backend other) :=
  inferInstanceAs (Decidable (change.kind = .attachmentTombstone ∧ other.home = .attachments ∧
    backend.storedKey other.key = backend.storedKey change.key))

/-- A change covers a later one as far as their vectors may be stored. -/
def Covers (change : Change) (ignored : List String) (late : Change) : Prop :=
  ∃ vector dropped older lateDropped, change.incoming ignored = .ok (vector, dropped) ∧
    late.incoming ignored = .ok (older, lateDropped) ∧ vector.covers older = true

instance : Decidable (change.Covers ignored other) :=
  match read : change.incoming ignored, otherRead : other.incoming ignored with
  | .ok (vector, dropped), .ok (older, lateDropped) =>
    decidable_of_iff (vector.covers older = true) ⟨
      fun covers => ⟨vector, dropped, older, lateDropped, read, otherRead, covers⟩,
      fun ⟨_, _, _, _, again, otherAgain, covers⟩ => by
        cases read.symm.trans again
        cases otherRead.symm.trans otherAgain
        exact covers⟩
  | .error _, _ => isFalse fun ⟨_, _, _, _, again, _⟩ => by
      cases read.symm.trans again
  | .ok _, .error _ => isFalse fun ⟨_, _, _, _, _, otherAgain, _⟩ => by
      cases otherRead.symm.trans otherAgain

theorem covers_ignoring : change.Covers (Context.ignoring ignored).ignored other ↔
    change.Covers ignored other := by
  simp only [Covers, incoming_ignoring]

/-- Where a change is known, so is every change of the same record that it covers. -/
theorem Known.of_covers (known : change.Known ignored work) (home : other.home = change.home)
    (key : other.key = change.key) (compared : other.kind ≠ .revisionTombstone)
    (covers : change.Covers ignored other) : other.Known ignored work := by
  obtain ⟨vector, dropped, older, lateDropped, read, otherRead, below⟩ := covers
  cases known with
  | noted revision =>
      rw [← home_eq_revisionTombstones, ← home, home_eq_revisionTombstones] at revision
      exact absurd revision compared
  | covered _ readAgain found parsed above =>
      cases read.symm.trans readAgain
      rw [← home, ← key] at found
      exact .covered compared otherRead found parsed (ChangeVector.covers_trans above below)

end Change

namespace Scheduler

/-- In every run from an empty store a change that an earlier one of the same record covers is
skipped and leaves everything as it was, unless the earlier one or one in between was written and
deleted the attachment that both are about. -/
theorem stale_skipped {transactions : List (List Slice)} {earlier late : LogEntry}
    (logged : (logRun ignored transactions (.create backend)).1 =
      past ++ earlier :: (between ++ late :: future))
    (kept : ∀ entry ∈ earlier :: between, entry.written.isSome = true →
      ¬ entry.change.Erases backend earlier.change)
    (home : late.change.home = earlier.change.home) (key : late.change.key = earlier.change.key)
    (compared : late.change.kind ≠ .revisionTombstone)
    (covers : earlier.change.Covers ignored late.change) :
    late.written = none ∧ late.after = late.before := by
  rw [← Change.covers_ignoring] at covers
  have leads := logRun_leads ignored transactions (.create backend)
  rw [logged] at leads
  obtain ⟨start, one, two⟩ := leads.split
  have begun : start.base.backend = backend := one.sameBackend
  cases two with
  | cons meets genuine leads =>
      obtain ⟨middle, three, four⟩ := leads.split
      obtain ⟨payloads, applied⟩ := genuine.applied
      have same : earlier.after.base.backend = backend := by
        rw [applied.base, ← meets.backend, begun]
      have lasting (written : earlier.written.isSome = true) :
          earlier.change.kind ≠ .attachmentTombstone := by
        intro deletes
        have attached := Change.home_of_attachmentTombstone deletes
        exact kept earlier List.mem_cons_self written ⟨deletes, attached, rfl⟩
      -- The earlier change is known from here on, up to the moment the late one is met.
      have known := three.known (applied.known_self lasting) fun entry member => by
        rw [same]
        exact kept entry (List.mem_cons_of_mem _ member)
      cases four with
      | cons lateMeets lateGenuine _ =>
          apply lateGenuine.skipped
          exact (known.sameRecords lateMeets).of_covers home key compared covers

def oldPhoto : Change := ⟨⟨"RV:5-A", 5, .epoch, 0⟩, .attachment "users/1" "photo" "image/png" "h"⟩

def oldDocument : Change := ⟨⟨"RV:4-A, RV:9-X", 4, .epoch, 0⟩, .document "Users/1" "users" [1]⟩

def documentDeletion : Change := ⟨⟨"RV:6-A", 6, .epoch, 0⟩, .documentTombstone "users/1" "users"⟩

def photoDeletion : Change := ⟨⟨"RV:7-A", 7, .epoch, 0⟩, .attachmentTombstone "users/1" "photo"⟩

/-- A document and a photo, their deletions, and both again as they were at first. -/
def lateDeliveries : List (List Slice) := [
  [⟨"north", 5, [.payload "h" [7], .change oldPhoto, .change oldDocument]⟩],
  [⟨"north", 7, [.change documentDeletion, .change photoDeletion]⟩],
  [⟨"south", 9, [.change oldDocument, .change oldPhoto]⟩]]

/-- A log can be taken apart where its changes can. -/
theorem exists_split {earlier late : Change} {before middle after : List Change}
    (changes : log.map (·.change) = before ++ earlier :: (middle ++ late :: after)) :
    ∃ past first between last future, log = past ++ first :: (between ++ last :: future) ∧
      first.change = earlier ∧ between.map (·.change) = middle ∧ last.change = late := by
  obtain ⟨past, _, rfl, -, rest⟩ := List.map_eq_append_iff.mp changes
  obtain ⟨first, _, rfl, sameFirst, rest⟩ := List.map_eq_cons_iff.mp rest
  obtain ⟨between, _, rfl, sameBetween, rest⟩ := List.map_eq_append_iff.mp rest
  obtain ⟨last, future, rfl, sameLast, -⟩ := List.map_eq_cons_iff.mp rest
  exact ⟨past, first, between, last, future, rfl, sameFirst, sameBetween, sameLast⟩

theorem changes_lateDeliveries :
    (logRun ["X"] lateDeliveries (.create .memory)).1.map (·.change) =
      [oldPhoto, oldDocument, documentDeletion, photoDeletion, oldDocument, oldPhoto] := by
  decide +kernel

/-- The deletion of the document is remembered. -/
theorem stale_skipped_lateDeliveries :
    ∃ past earlier between late future,
      (logRun ["X"] lateDeliveries (.create .memory)).1 =
        past ++ earlier :: (between ++ late :: future) ∧
      earlier.change = documentDeletion ∧ late.change = oldDocument ∧
      late.written = none ∧ late.after = late.before := by
  have changes : (logRun ["X"] lateDeliveries (.create .memory)).1.map (·.change) =
      [oldPhoto, oldDocument] ++ documentDeletion ::
        ([photoDeletion] ++ oldDocument :: [oldPhoto]) := changes_lateDeliveries
  obtain ⟨past, earlier, between, late, future, logged, deletion, middle, again⟩ :=
    exists_split changes
  have kept : ∀ entry ∈ earlier :: between, entry.written.isSome = true →
      ¬ entry.change.Erases .memory earlier.change := by
    have each : ∀ change ∈ [documentDeletion, photoDeletion],
        ¬ change.Erases .memory documentDeletion := by decide
    intro entry member written
    have listed := List.mem_map_of_mem (f := LogEntry.change) member
    rw [List.map_cons, deletion] at listed
    rw [deletion]
    exact each entry.change (middle ▸ listed)
  have home : late.change.home = earlier.change.home := by
    rw [again, deletion]
    rfl
  have key : late.change.key = earlier.change.key := by
    rw [again, deletion]
    decide +kernel
  have compared : late.change.kind ≠ .revisionTombstone := by
    rw [again]
    decide
  have covers : earlier.change.Covers ["X"] late.change := by
    rw [again, deletion]
    decide +kernel
  exact ⟨past, earlier, between, late, future, logged, deletion, again,
    stale_skipped logged kept home key compared covers⟩

/-- The deletion of the photo is not: the photo is taken in again. -/
theorem stale_photo_written :
    ¬ ∀ (backend : Backend) (ignored : List String) (transactions : List (List Slice))
      (past between future : List LogEntry) (earlier late : LogEntry),
      (logRun ignored transactions (.create backend)).1 =
        past ++ earlier :: (between ++ late :: future) →
      late.change.home = earlier.change.home → late.change.key = earlier.change.key →
      late.change.kind ≠ .revisionTombstone → earlier.change.Covers ignored late.change →
      late.written = none ∧ late.after = late.before := by
  intro skipped
  have changes : (logRun ["X"] lateDeliveries (.create .memory)).1.map (·.change) =
      [oldPhoto, oldDocument, documentDeletion] ++ photoDeletion ::
        ([oldDocument] ++ oldPhoto :: []) := changes_lateDeliveries
  obtain ⟨past, earlier, between, late, future, logged, deletion, -, again⟩ := exists_split changes
  have covers : earlier.change.Covers ["X"] late.change := by
    rw [again, deletion]
    decide +kernel
  have unwritten : late.written = none := by
    refine (skipped .memory ["X"] lateDeliveries past between future earlier late logged
      ?_ ?_ ?_ covers).1
    · rw [again, deletion]
      rfl
    · rw [again, deletion]
      decide +kernel
    · rw [again]
      decide
  have written : ∀ entry ∈ (logRun ["X"] lateDeliveries (.create .memory)).1,
      entry.change = oldPhoto → entry.written.isSome = true := by decide +kernel
  have member : late ∈ (logRun ["X"] lateDeliveries (.create .memory)).1 := by
    rw [logged]
    simp
  have taken := written late member again
  rw [unwritten] at taken
  contradiction

end Scheduler

end DocumentReplication
