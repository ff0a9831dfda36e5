import DocumentReplication.Proofs.Commit.Knowledge
import DocumentReplication.Proofs.Commit.Settled
import DocumentReplication.Proofs.Commit.SliceDocument

/-!
Replaying a slice. After a slice was committed every change in it is known, its etag is reached and
the vector it left is what it would leave again, so running it once more writes nothing new.
-/

namespace DocumentReplication

open Work

variable {payloads : Dictionary String Bytes} {changes : List Change} {change : Change}
  {outcome result : SliceOutcome} {workspace before after next : Workspace}
  {ignored : List String}

namespace Slice

theorem applyChanges_of_known (payloads : Dictionary String Bytes) (workspace : Workspace)
    (known : ∀ change ∈ changes,
      change.Known workspace.context.ignored workspace.transaction) (outcome : SliceOutcome) :
    ∃ context, workspace.context.SameProgress context ∧
      attempt (applyChanges payloads changes outcome) workspace =
        .ok (⟨outcome.applied, outcome.skipped + changes.length⟩,
          { workspace with context := context }) := by
  induction changes generalizing workspace outcome with
  | nil => exact ⟨workspace.context, .refl _, rfl⟩
  | cons first rest ih =>
      obtain ⟨context, progress, skipped⟩ := (known first List.mem_cons_self).apply payloads
      obtain ⟨last, further, others⟩ := ih { workspace with context := context }
        (fun change member => by
          simp only [progress.ignored]
          exact known change (List.mem_cons_of_mem _ member))
        { outcome with skipped := outcome.skipped + 1 }
      refine ⟨last, progress.trans further, ?_⟩
      simp only [applyChanges, attempt_bind, skipped, Except.ok_bind, others, List.length_cons,
        Nat.add_assoc, Nat.add_comm 1]

theorem advance_nextState {fresh : Context} (etags : fresh.etags = .empty) (slice : Slice)
    (context : Context) (state : ReplicationState) (text : Option String) :
    advance (fresh.recordEtag slice.source slice.lastEtag).etags
        (slice.nextState context state text).lastEtagFrom =
      (slice.nextState context state text).lastEtagFrom := by
  apply advance_of_behind
  intro source etag found
  rw [get?_recordEtag, etags] at found
  split at found
  · rename_i same
    subst same
    cases found
    obtain ⟨noted, notedFound, below⟩ := exists_recordEtag context slice.source slice.lastEtag
    obtain ⟨current, currentFound, above⟩ := (behind_advance _ _).2 slice.source noted notedFound
    exact ⟨current, currentFound, Int64.le_trans below above⟩
  · contradiction

/-- A context that knows nothing but a settled state would persist the same text again. -/
theorem nextVector_settled {state : ReplicationState} {vector : ChangeVector} {context : Context}
    (settled : state.Settled ignored vector)
    (text : context.vectorText = none ∨ context.vectorText = some state.changeVector) :
    ∃ kept, nextVector context vector = .ok kept ∧
      kept.getD state.changeVector = state.changeVector := by
  rcases text with nothing | same
  · exact ⟨none, nextVector_eq_none_iff.mpr nothing, rfl⟩
  · exact ⟨some state.changeVector,
      nextVector_of_covers same settled.parsed (ChangeVector.covers_refl vector), rfl⟩

/-- Slices of one source with the same changes, whatever payloads come with them. -/
structure Twins (slice twin : Slice) : Prop where
  source : twin.source = slice.source
  lastEtag : twin.lastEtag = slice.lastEtag
  changes : twin.changes = slice.changes

theorem Twins.nextState {slice twin : Slice} (twins : slice.Twins twin) (context : Context)
    (state : ReplicationState) (text : Option String) :
    twin.nextState context state text = slice.nextState context state text := by
  rw [Slice.nextState, twins.source, twins.lastEtag, Slice.nextState]

/-- Over a settled state a slice whose changes are all known starts and skips them, and the context has
nothing to persist but the vector of the state. -/
theorem exists_skipped {state : ReplicationState} {vector : ChangeVector} {seen : Workspace}
    (payloads : Dictionary String Bytes) (settled : state.Settled seen.context.ignored vector)
    (vectorText : seen.context.vectorText = none) (etags : seen.context.etags = .empty)
    (known : ∀ change ∈ changes, change.Known seen.context.ignored seen.transaction) :
    ∃ begun finished, attempt (startFrom vector) seen = .ok ((), { seen with context := begun }) ∧
      attempt (applyChanges payloads changes ⟨0, 0⟩) { seen with context := begun } =
        .ok (⟨0, changes.length⟩, { seen with context := finished }) ∧
      finished.etags = .empty ∧
      (finished.vectorText = none ∨ finished.vectorText = some state.changeVector) := by
  have nothing : seen.context.accumulated = .ok .empty := by
    rw [Context.accumulated, vectorText]
  obtain ⟨begun, start, names, begunEtags, begunText⟩ := startFrom_settled settled nothing (.inl rfl)
  rw [← names] at known
  obtain ⟨finished, progress, skipped⟩ := applyChanges_of_known payloads
    { seen with context := begun } known ⟨0, 0⟩
  simp only [Nat.zero_add] at skipped
  refine ⟨begun, finished, start, skipped, ?_, ?_⟩
  · rw [progress.etags, begunEtags, etags]
  · rw [progress.vectorText]
    rcases begunText with ⟨-, fresh⟩ | ⟨-, text⟩
    · exact .inl (by rw [fresh, vectorText])
    · exact .inr text

/-- Twins that find the state that was left, and no etags, leave it as it is. -/
theorem Twins.nextState_again {slice twin : Slice} (twins : slice.Twins twin) {fresh context : Context}
    {state left : ReplicationState} {text kept : Option String} (etags : fresh.etags = .empty)
    (found : slice.nextState context state text = left)
    (same : kept.getD left.changeVector = left.changeVector) :
    twin.nextState fresh left kept = left := by
  have reached := advance_nextState etags slice context state text
  rw [found] at reached
  rw [twins.nextState, Slice.nextState, reached, same]

section

variable {slice twin : Slice} {stored : Option ReplicationState} {previous : ChangeVector}
  {started applied : Workspace} {text : Option String} {record : Bytes} {seen : Transaction}

/-- After an execution every change of the slice is known. -/
theorem Executed.known
    (executed : slice.Executed before after outcome stored previous started applied text record)
    (kept : ∀ change ∈ slice.changes, change.kind ≠ .attachmentTombstone)
    (view : seen.SameView after.transaction) (member : change ∈ slice.changes) :
    change.Known before.context.ignored seen := by
  have inRun := applyChanges_known executed.apply member (kept change member)
    fun other otherMember deletes => absurd deletes (kept other otherMember)
  rw [← applyChanges_ignored executed.apply, executed.ignored] at inRun
  exact (inRun.put_state executed.put).sameView view.symm

/-- The state that an execution left can be put once more, and nothing new is seen. -/
theorem Executed.exists_put_again
    (executed : slice.Executed before after outcome stored previous started applied text record)
    (view : seen.SameView after.transaction) :
    ∃ again, seen.put .state Partition.stateKey record = .ok again ∧
      again.SameView after.transaction := by
  obtain ⟨again, put⟩ : ∃ again, seen.put .state Partition.stateKey record = .ok again := by
    refine Transaction.exists_put ?_ _ _
    rw [view.backend, Transaction.base_put executed.put]
    exact Transaction.checkKey_of_put executed.put
  exact ⟨again, put, Transaction.sameView_put_again executed.put view put⟩

/-- Running the changes of a slice again after it was executed skips them all and shows nothing new. -/
theorem Executed.repeated
    (executed : slice.Executed before after outcome stored previous started applied text record)
    (twins : slice.Twins twin) (seen : Workspace) (canonical : before.context.Canonical)
    (kept : ∀ change ∈ slice.changes, change.kind ≠ .attachmentTombstone)
    (ignored : seen.context.ignored = before.context.ignored)
    (vectorText : seen.context.vectorText = none) (etags : seen.context.etags = .empty)
    (view : seen.transaction.SameView after.transaction) :
    ∃ last, attempt twin.execute seen = .ok (⟨0, slice.changes.length⟩, last) ∧
      last.transaction.SameView after.transaction := by
  obtain ⟨vector, carries⟩ := executed.carries canonical
  have settled := carries.settled
  have encoded := executed.encoded
  have read := view.readState.trans executed.readState
  generalize state : slice.nextState applied.context (stored.getD .empty) text = left
    at settled encoded read
  have names : after.context.ignored = seen.context.ignored := by
    rw [ignored, executed.context, ← executed.ignored]
    rfl
  rw [names] at settled
  have known : ∀ change ∈ twin.changes, change.Known seen.context.ignored seen.transaction := by
    rw [twins.changes, ignored]
    exact fun change => executed.known kept view
  obtain ⟨begun, finished, start, skipped, fresh, carried⟩ :=
    exists_skipped twin.payloads settled vectorText etags known
  obtain ⟨again, put, viewAgain⟩ := executed.exists_put_again view
  have recorded : (finished.recordEtag twin.source twin.lastEtag).vectorText = none ∨
      (finished.recordEtag twin.source twin.lastEtag).vectorText = some left.changeVector := carried
  obtain ⟨persisting, persisted, same⟩ := nextVector_settled settled recorded
  -- The record of the state is the one that is there, and putting it changes nothing.
  have unchanged := twins.nextState_again fresh state same
  rw [← twins.changes]
  refine ⟨⟨finished.recordEtag twin.source twin.lastEtag, again⟩, attempt_execute_iff.mpr
    ⟨some left, vector, _, _, persisting, record, ⟨read, settled.parsed, start, skipped, persisted, ?_,
      put, rfl⟩⟩, viewAgain⟩
  rw [Option.getD_some, unchanged]
  exact encoded

end

theorem Executed.again {slice : Slice} {stored : Option ReplicationState} {previous : ChangeVector}
    {started applied : Workspace} {text : Option String} {record : Bytes}
    (executed : slice.Executed before after outcome stored previous started applied text record)
    (seen : Workspace) (canonical : before.context.Canonical)
    (kept : ∀ change ∈ slice.changes, change.kind ≠ .attachmentTombstone)
    (ignored : seen.context.ignored = before.context.ignored)
    (vectorText : seen.context.vectorText = none) (etags : seen.context.etags = .empty)
    (view : seen.transaction.SameView after.transaction) :
    ∃ last, attempt slice.execute seen = .ok (⟨0, slice.changes.length⟩, last) ∧
      last.transaction.SameView after.transaction :=
  executed.repeated ⟨rfl, rfl, rfl⟩ seen canonical kept ignored vectorText etags view

theorem length_changes (slice : Slice) :
    slice.changes.length = (slice.items.filter (·.kind ≠ .attachmentStream)).length := by
  obtain ⟨source, lastEtag, items⟩ := slice
  unfold Slice.changes
  induction items with
  | nil => rfl
  | cons item rest ih =>
      cases item with
      | payload hash content => simpa [Item.kind] using ih
      | change entry =>
          have counted : entry.kind ≠ .attachmentStream := entry.body.kind_ne_attachmentStream
          simpa [Item.kind, counted] using ih

/-- A slice that was committed, written down and taken up again is executed again without a fault:
nothing is applied, every change is skipped, and the store stays as it was. Deletions of attachments
are excepted, since they leave nothing to recognise them by. -/
theorem replay_idempotent {slice : Slice} {store next : Partition}
    (kept : ∀ item ∈ slice.items, item.kind ≠ .attachmentTombstone)
    (committed : Scheduler.transact ignored slice.execute store = .ok (outcome, next)) :
    ∃ rebuilt again, Slice.ofJson? slice.toJson = some rebuilt ∧
      Scheduler.transact ignored rebuilt.execute next =
        .ok (⟨0, (slice.items.filter (·.kind ≠ .attachmentStream)).length⟩, again) ∧
      again.SameContents next ∧ again.readState = next.readState := by
  obtain ⟨after, done, rfl⟩ := Scheduler.transact_eq_ok_iff.mp committed
  obtain ⟨stored, previous, started, applied, text, record, executed⟩ := attempt_execute_iff.mp done
  obtain ⟨last, again, view⟩ := executed.again
    ⟨.ignoring ignored, after.transaction.commit.begin⟩ (Context.canonical_ignoring ignored)
    (fun change member => kept _ (mem_changes.mp member)) rfl
    (Context.vectorText_ignoring ignored) (Context.etags_ignoring ignored)
    (Transaction.sameView_begin_commit after.transaction)
  rw [length_changes] at again
  exact ⟨slice, last.transaction.commit, slice.ofJson?_toJson,
    Scheduler.transact_eq_ok_iff.mpr ⟨last, again, rfl⟩, view.commit, view.commit.readState⟩

/-- Two changes of one document that know nothing of each other, its deletion after both, and an
attachment with its content; entries of one instance are ignored. -/
def concurrentSlice : Slice where
  source := "north"
  lastEtag := 40
  items := [
    .change ⟨⟨"RV:3-A, RV:9-X", 38, .epoch, 0⟩, .document "Users/1" "users" [1]⟩,
    .change ⟨⟨"RV:5-B, TRXN:2-T", 39, .epoch, 0⟩, .document "users/1" "users" [2]⟩,
    .change ⟨⟨"RV:4-A, RV:5-B", 40, .epoch, 0⟩, .documentTombstone "users/1" "users"⟩,
    .payload "h" [7],
    .change ⟨⟨"RV:6-A", 40, .epoch, 0⟩, .attachment "users/1" "photo" "image/png" "h"⟩]

theorem replay_idempotent_concurrentSlice :
    (∀ item ∈ concurrentSlice.items, item.kind ≠ .attachmentTombstone) ∧
    ∃ outcome next,
      Scheduler.transact ["X"] concurrentSlice.execute (.create .memory) = .ok (outcome, next) ∧
      ∃ rebuilt again, Slice.ofJson? concurrentSlice.toJson = some rebuilt ∧
        Scheduler.transact ["X"] rebuilt.execute next =
          .ok (⟨0, (concurrentSlice.items.filter (·.kind ≠ .attachmentStream)).length⟩, again) ∧
        again.SameContents next ∧ again.readState = next.readState := by
  have kept : ∀ item ∈ concurrentSlice.items, item.kind ≠ .attachmentTombstone := by decide
  have succeeds : (Scheduler.transact ["X"] concurrentSlice.execute
      (.create .memory)).isOk = true := by decide +kernel
  cases committed : Scheduler.transact ["X"] concurrentSlice.execute (.create .memory) with
  | ok result => exact ⟨kept, result.1, result.2, rfl, replay_idempotent kept committed⟩
  | error fault =>
      rw [committed] at succeeds
      contradiction

end Slice

end DocumentReplication
