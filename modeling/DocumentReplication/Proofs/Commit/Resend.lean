import DocumentReplication.Proofs.Commit.Agreement
import DocumentReplication.Proofs.Commit.ContentAddressing
import DocumentReplication.Proofs.Commit.Replay

/-!
Slices that come again with their payloads. A slice that was committed without payloads needed none:
every content it asked for was there, and no other content has the same hash. So the payloads would
have changed nothing, and they change nothing when the slice is run once more with them.
-/

namespace DocumentReplication

open Work Workspace

variable {payloads : Dictionary String Bytes} {change : Change} {ignored : List String}
  {work before after : Transaction} {workspace next : Workspace} {outcome : SliceOutcome}

theorem Transaction.sameView_put {table : Table} {key : String} {value : Bytes}
    (done : before.put table key value = .ok after)
    (there : before.lookup? (before.address table key) = some ⟨key, value⟩) :
    after.SameView before := by
  refine ⟨by rw [base_put done], fun address => ?_⟩
  rw [lookup?_put done]
  split
  · rename_i same
    rw [← same, there]
  · rfl

/-- A content that is stored under the hash of a payload is that payload. -/
def Transaction.Stocks (payloads : Dictionary String Bytes) (work : Transaction) : Prop :=
  ∀ hash content, payloads.get? hash = some content →
    ∀ blob, work.lookup? (work.address .attachmentBlobs hash) = some blob → blob = ⟨hash, content⟩

/-- Contents are what their hashes say, so only a collision could have put another one there. -/
theorem Transaction.ContentAddressed.stocks (addressed : work.ContentAddressed)
    (hashed : Hashed payloads)
    (unique : ∀ hash content, payloads.get? hash = some content →
      ∀ place blob, work.lookup? (.attachmentBlobs, place) = some blob →
        contentHash blob.value = contentHash content → blob.value = content) :
    work.Stocks payloads := by
  intro hash content found blob there
  obtain rfl := hashed hash content found
  obtain ⟨place, digest⟩ := addressed.blobs _ blob there
  rw [Backend.storedKey_contentHash] at place
  have same := unique _ content found _ blob there (digest.trans place.symm)
  exact congrArg₂ StoredEntry.mk place.symm same

namespace Change

/-- A change that found its content finds it as well where the content comes along. -/
theorem provideContent_stocked (stocks : workspace.transaction.Stocks payloads)
    (done : attempt (change.provideContent .empty) workspace = .ok ((), next)) :
    ∃ twin, attempt (change.provideContent payloads) workspace = .ok ((), twin) ∧
      Alike Eq twin next := by
  have nothing (hash : String) : (Dictionary.empty : Dictionary String Bytes).get? hash = none := rfl
  unfold provideContent at done ⊢
  cases shape : change.body with
  | attachment documentId name contentType hash =>
      simp only [shape, nothing] at done ⊢
      cases found : payloads.get? hash with
      | none => exact ⟨next, done, rfl, .refl _⟩
      | some content =>
          simp only [attempt_bind, attempt_fetch, Except.bind_eq_ok_iff,
            Except.map_eq_ok_iff] at done
          obtain ⟨_, ⟨stored, read, rfl⟩, done⟩ := done
          obtain ⟨allowed, there⟩ := Transaction.get_eq_ok_iff.mp read
          cases stored with
          | none => simp at done
          | some value =>
              cases done
              obtain ⟨blob, held, -⟩ := Option.map_eq_some_iff.mp there
              obtain ⟨grown, put⟩ := Transaction.exists_put allowed .attachmentBlobs content
              obtain rfl := stocks hash content found blob held
              simp only [attempt_put, put, Except.map_ok]
              exact ⟨_, rfl, rfl, Transaction.sameView_put put held⟩
  | _ =>
      simp only [shape] at done ⊢
      exact ⟨next, done, rfl, .refl _⟩

/-- Nothing is put in stock by a change that comes without payloads. -/
theorem Applied.stocks {result : Option ChangeVector}
    (applied : change.Applied .empty ignored before after result)
    (stocks : before.Stocks payloads) : after.Stocks payloads := by
  cases applied with
  | known => exact stocks
  | written raises provides writes =>
      intro hash content found blob there
      rcases provides.cases with ⟨_, _, -, taken, -⟩ | ⟨rfl, -⟩
      · contradiction
      · rw [Transaction.address, writes.base, writes.lookup_blobs] at there
        exact stocks hash content found blob there

theorem apply_stocked {result : Option ChangeVector} (stocks : workspace.transaction.Stocks payloads)
    (done : attempt (change.apply .empty) workspace = .ok (result, next)) :
    ∃ twin, attempt (change.apply payloads) workspace = .ok (result, twin) ∧ Alike Eq twin next := by
  unfold Change.apply at done ⊢
  by_cases revision : change.kind = .revisionTombstone
  · rw [if_pos revision] at done ⊢
    exact ⟨next, done, rfl, .refl _⟩
  · rw [if_neg revision] at done ⊢
    simp only [attempt_bind, attempt_get, Except.ok_bind, Except.bind_eq_ok_iff] at done
    obtain ⟨⟨stored, met⟩, read, ⟨resolved, settled⟩, resolves, done⟩ := done
    obtain ⟨-, rfl⟩ := attempt_ofExcept_eq_ok read
    have still := (attempt_resolve resolves).1
    simp only [attempt_bind, attempt_get, Except.ok_bind, read, resolves]
    cases resolved with
    | none => exact ⟨next, done, rfl, .refl _⟩
    | some vector =>
        simp only [attempt_bind, Except.bind_eq_ok_iff] at done
        obtain ⟨⟨⟨⟩, provided⟩, provides, ⟨⟨⟩, written⟩, writes, same⟩ := done
        cases same
        obtain ⟨twin, supplied, alike⟩ := provideContent_stocked (still ▸ stocks) provides
        obtain ⟨⟨⟨⟩, last⟩, wrote, -, alikeLast⟩ :=
          (agrees_write Context.tolerant_eq alike).exists_of_ok writes
        simp only [attempt_bind, supplied, Except.ok_bind, wrote]
        exact ⟨last, rfl, alikeLast⟩

end Change

namespace Slice

variable {changes : List Change} {counted : SliceOutcome} {bare full : Slice}

theorem applyChanges_stocked (stocks : workspace.transaction.Stocks payloads)
    (stripped : workspace.transaction.Stripped)
    (done : attempt (applyChanges .empty changes outcome) workspace = .ok (counted, next)) :
    ∃ twin, attempt (applyChanges payloads changes outcome) workspace = .ok (counted, twin) ∧
      Alike Eq twin next := by
  induction changes generalizing workspace outcome with
  | nil => exact ⟨next, done, rfl, .refl _⟩
  | cons change rest ih =>
      simp only [applyChanges, attempt_bind, Except.bind_eq_ok_iff] at done ⊢
      obtain ⟨⟨written, applied⟩, first, done⟩ := done
      obtain ⟨twin, twinFirst, alike⟩ := Change.apply_stocked stocks first
      obtain ⟨step, -⟩ := Change.attempt_apply first
      obtain ⟨twinStep, -⟩ := Change.attempt_apply twinFirst
      have stockedNext := step.stocks stocks
      have strippedNext := stripped.applied step
      have strippedTwin := stripped.applied twinStep
      -- The rest of the run is the same with payloads, and then from where the twin is.
      have resume {between other : Workspace} {reached : SliceOutcome}
          (here : between.transaction = applied.transaction)
          (there : other.transaction = twin.transaction) (alike : Alike Eq other between)
          (done : attempt (applyChanges .empty rest reached) between = .ok (counted, next)) :
          ∃ last, attempt (applyChanges payloads rest reached) other = .ok (counted, last) ∧
            Alike Eq last next := by
        obtain ⟨middle, supplied, near⟩ := ih (here ▸ stockedNext) (here ▸ strippedNext) done
        obtain ⟨⟨_, last⟩, ran, same, close⟩ := (agrees_applyChanges payloads Context.tolerant_eq
          (fun _ _ _ same _ _ => Context.agree_of_eq same) rest reached alike
          (there ▸ strippedTwin)).exists_of_ok supplied
        cases same
        exact ⟨last, ran, close.context.trans near.context, close.view.trans near.view⟩
      cases written with
      | none =>
          obtain ⟨last, ran, close⟩ := resume rfl rfl alike done
          exact ⟨last, ⟨(none, twin), twinFirst, ran⟩, close⟩
      | some vector =>
          simp only [attempt_bind, Except.bind_eq_ok_iff] at done
          obtain ⟨⟨⟨⟩, merged⟩, merges, done⟩ := done
          obtain ⟨⟨⟨⟩, twinMerged⟩, twinMerges, -, alikeMerged⟩ :=
            (agrees_onContext alike (Context.agree_of_eq alike.context)).exists_of_ok merges
          obtain ⟨last, ran, close⟩ := resume (transaction_onContext merges)
            (transaction_onContext twinMerges) alikeMerged done
          refine ⟨last, ⟨(some vector, twin), twinFirst, ?_⟩, close⟩
          simp only [attempt_bind, twinMerges, Except.ok_bind]
          exact ran

/-- A slice that found all its contents comes to the same with its payloads. -/
theorem execute_stocked (twins : bare.Twins full) (without : bare.payloads = .empty)
    (stocks : workspace.transaction.Stocks full.payloads)
    (stripped : workspace.transaction.Stripped)
    (done : attempt bare.execute workspace = .ok (outcome, next)) :
    ∃ twin, attempt full.execute workspace = .ok (outcome, twin) ∧
      twin.transaction.SameView next.transaction := by
  obtain ⟨stored, previous, started, applied, text, record, executed⟩ := attempt_execute_iff.mp done
  have still := (startFrom_cases executed.legible executed.start).1
  have run := executed.apply
  rw [without] at run
  rw [← still] at stocks stripped
  obtain ⟨twin, ran, alike⟩ := applyChanges_stocked stocks stripped run
  rw [← twins.changes] at ran
  have encoded := executed.encoded
  have persisted := executed.persisted
  rw [← twins.nextState, ← alike.context] at encoded
  rw [← twins.source, ← twins.lastEtag, ← alike.context] at persisted
  obtain ⟨last, put, view⟩ := (alike.view.put _ _ _).exists_of_ok executed.put
  exact ⟨⟨twin.context.recordEtag full.source full.lastEtag, last⟩, attempt_execute_iff.mpr
    ⟨stored, previous, started, twin, text, record, executed.read, executed.parsed, executed.start,
      ran, persisted, encoded, put, rfl⟩, view⟩

end Slice

/-- A slice that was committed without its payloads left the store as it would have with them, and
running it once more with them changes nothing. -/
theorem Scheduler.transact_resend {bare full : Slice} {store committed : Partition}
    (twins : bare.Twins full) (without : bare.payloads = .empty)
    (kept : ∀ change ∈ full.changes, change.kind ≠ .attachmentTombstone)
    (stocks : store.begin.Stocks full.payloads) (stripped : store.begin.Stripped)
    (done : transact ignored bare.execute store = .ok (outcome, committed)) :
    ∃ result once repeated again, transact ignored full.execute store = .ok (result, once) ∧
      transact ignored full.execute committed = .ok (repeated, again) ∧
      again.SameContents once := by
  obtain ⟨after, ran, rfl⟩ := transact_eq_ok_iff.mp done
  obtain ⟨twin, supplied, close⟩ := Slice.execute_stocked twins without stocks stripped ran
  obtain ⟨stored, previous, started, applied, text, record, executed⟩ :=
    Slice.attempt_execute_iff.mp ran
  rw [twins.changes] at kept
  obtain ⟨last, repeats, view⟩ := executed.repeated twins
    ⟨.ignoring ignored, after.transaction.commit.begin⟩ (Context.canonical_ignoring ignored) kept rfl
    (Context.vectorText_ignoring ignored) (Context.etags_ignoring ignored)
    (Transaction.sameView_begin_commit after.transaction)
  exact ⟨outcome, twin.transaction.commit, _, last.transaction.commit,
    transact_eq_ok_iff.mpr ⟨twin, supplied, rfl⟩, transact_eq_ok_iff.mpr ⟨last, repeats, rfl⟩,
    (view.trans close.symm).commit⟩

end DocumentReplication
