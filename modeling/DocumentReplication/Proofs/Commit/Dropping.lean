import DocumentReplication.Proofs.Commit.Accumulation
import DocumentReplication.Proofs.Commit.Retention

/-!
When the check before a vector is persisted is off. It goes off where entries of ignored instances are
dropped from the persisted vector or from a change that is compared with what is stored, written or
not, and nothing turns it on again. The tombstone of a revision is not compared, and what is dropped
from it leaves the check as it was.
-/

namespace DocumentReplication

open Work Workspace

variable {α β : Type} {ignored : List String} {change : Change} {changes : List Change}
  {payloads : Dictionary String Bytes} {slice : Slice} {outcome result : SliceOutcome}
  {before after : Workspace} {previous vector : ChangeVector}

/-- Work that leaves the check as it is where it succeeds. -/
def Workspace.Quiet (command : Command α) : Prop :=
  ∀ before value after, attempt command before = .ok (value, after) →
    after.context.skipsValidation = before.context.skipsValidation

namespace Workspace

theorem quiet_pure (value : α) : Quiet (pure value) := by
  intro before _ after done
  cases done
  rfl

theorem quiet_throw (fault : Fault) : Quiet (throw fault : Command α) := by
  intro before _ after done
  cases done

theorem quiet_get : Quiet (get : Command Workspace) := by
  intro before _ after done
  cases done
  rfl

theorem quiet_ofExcept (outcome : Except Fault α) : Quiet (ofExcept outcome : Command α) := by
  intro before value after done
  rw [(attempt_ofExcept_eq_ok done).2]

theorem quiet_bind {command : Command α} {next : α → Command β} (first : Quiet command)
    (rest : ∀ value, Quiet (next value)) : Quiet (command >>= next) := by
  intro before value after done
  rw [attempt_bind, Except.bind_eq_ok_iff] at done
  obtain ⟨⟨middle, between⟩, one, done⟩ := done
  exact (rest _ _ _ _ done).trans (first _ _ _ one)

theorem quiet_fetch (table : Table) (key : String) : Quiet (fetch table key) :=
  quiet_bind quiet_get fun _ => quiet_ofExcept _

theorem quiet_put (table : Table) (key : String) (value : Bytes) : Quiet (put table key value) := by
  intro before _ after done
  rw [attempt_put, Except.map_eq_ok_iff] at done
  obtain ⟨transaction, -, same⟩ := done
  cases same
  rfl

theorem quiet_delete (table : Table) (key : String) : Quiet (delete table key) := by
  intro before _ after done
  rw [attempt_delete, Except.map_eq_ok_iff] at done
  obtain ⟨transaction, -, same⟩ := done
  cases same
  rfl

theorem quiet_putRecord (table : Table) (key : String) (record : Bytes) :
    Quiet (putRecord table key record) := by
  refine quiet_bind ?_ fun _ => quiet_put table key record
  intro before _ after done
  cases done
  rfl

/-- When a vector enters, only the text of the accumulated one is new. -/
theorem exists_text_of_mergeVector (legible : vector.Legible)
    (done : attempt (onContext (Context.mergeVector vector)) before = .ok ((), after)) :
    ∃ text, after.context = { before.context.touch with vectorText := some text } := by
  rw [attempt_onContext, Context.attempt_mergeVector legible, Except.map_map,
    Except.map_eq_ok_iff] at done
  obtain ⟨current, -, same⟩ := done
  cases same
  exact ⟨_, rfl⟩

theorem quiet_mergeVector (legible : vector.Legible) :
    Quiet (onContext (Context.mergeVector vector)) := by
  intro before _ after done
  obtain ⟨text, same⟩ := exists_text_of_mergeVector legible done
  rw [same]
  rfl

end Workspace

theorem ChangeVector.countIn_pos_iff :
    0 < vector.countIn ignored ↔ ∃ entry ∈ vector.entries, entry.instanceId ∈ ignored := by
  simp [countIn, List.countP_pos_iff]

theorem Context.mem_ignored_ignoring {name : String} :
    name ∈ (ignoring ignored).ignored ↔ name ∈ ignored := by
  simp [ignoring, mem_ignored_ignoreAll, fresh]

theorem Context.skipsValidation_ignoreAll (instanceIds : List String) (context : Context) :
    (context.ignoreAll instanceIds).skipsValidation = context.skipsValidation := by
  induction instanceIds generalizing context with
  | nil => rfl
  | cons first rest ih => exact ih (context.ignore first)

namespace Change

theorem quiet_provideContent (change : Change) (payloads : Dictionary String Bytes) :
    Quiet (change.provideContent payloads) := by
  unfold provideContent
  split
  · split
    · exact quiet_put _ _ _
    · refine quiet_bind (quiet_fetch _ _) fun content => ?_
      split
      · exact quiet_throw _
      · exact quiet_pure _
  · exact quiet_pure _

theorem quiet_write (change : Change) (vector : ChangeVector) : Quiet (change.write vector) := by
  refine quiet_bind (quiet_ofExcept _) fun record => ?_
  cases change.displaced? with
  | none =>
      cases record with
      | none => exact quiet_pure _
      | some record => exact quiet_bind (quiet_putRecord _ _ _) fun _ => quiet_pure _
  | some table =>
      cases record with
      | none => exact quiet_delete _ _
      | some record => exact quiet_bind (quiet_putRecord _ _ _) fun _ => quiet_delete _ _

theorem quiet_applyRevision (change : Change) : Quiet change.applyRevision := by
  refine quiet_bind (quiet_fetch _ _) fun found => ?_
  split
  · exact quiet_pure _
  · refine quiet_bind quiet_get fun workspace => quiet_bind (quiet_ofExcept _) fun incoming => ?_
    exact quiet_bind (quiet_write change _) fun _ => quiet_pure _

/-- The vector of a change has an entry of an ignored instance, which is not transactional. -/
def Drops (change : Change) (ignored : List String) : Prop :=
  ∃ vector, ChangeVector.parse change.header.changeVector = .ok vector ∧
    ∃ entry ∈ vector.entries, entry.isTransactional = false ∧ entry.instanceId ∈ ignored

theorem drops_iff {incoming : ChangeVector} {dropped : Bool}
    (read : change.incoming ignored = .ok (incoming, dropped)) :
    change.Drops ignored ↔ dropped = true := by
  obtain ⟨vector, parsed, -, rfl⟩ := incoming_eq_ok_iff.mp read
  rw [decide_eq_true_iff, ChangeVector.countIn_pos_iff]
  simp only [ChangeVector.withoutTransactional, ChangeVector.filter, List.mem_filter,
    Bool.not_eq_true', and_assoc]
  constructor
  · rintro ⟨again, same, entry⟩
    cases parsed.symm.trans same
    exact entry
  · exact fun entry => ⟨vector, parsed, entry⟩

theorem drops_ignoring :
    change.Drops (Context.ignoring ignored).ignored ↔ change.Drops ignored := by
  simp only [Drops, Context.mem_ignored_ignoring]

theorem resolve_skips {stored : Option String} {written : Option ChangeVector}
    (done : attempt (change.resolve stored) before = .ok (written, after)) :
    after.context.skipsValidation = true ↔
      before.context.skipsValidation = true ∨ change.Drops before.context.ignored := by
  simp only [resolve_eq, attempt_bind, attempt_get, attempt_ofExcept, Except.ok_bind,
    Except.bind_eq_ok_iff, Except.map_eq_ok_iff] at done
  obtain ⟨_, ⟨⟨incoming, dropped⟩, read, rfl⟩, done⟩ := done
  rw [drops_iff read]
  cases dropped with
  | false =>
      obtain ⟨rfl, -⟩ := attempt_settling done
      simp
  | true =>
      simp only [if_true, attempt_bind, attempt_changeContext, Except.ok_bind] at done
      obtain ⟨rfl, -⟩ := attempt_settling done
      exact ⟨fun _ => .inr rfl, fun _ => rfl⟩

/-- Applying a change turns the check off exactly if something is dropped from it, unless it is the
tombstone of a revision. -/
theorem apply_skips {written : Option ChangeVector}
    (done : attempt (change.apply payloads) before = .ok (written, after)) :
    after.context.skipsValidation = true ↔
      before.context.skipsValidation = true ∨
        change.kind ≠ .revisionTombstone ∧ change.Drops before.context.ignored := by
  unfold Change.apply at done
  split at done
  · rename_i revision
    rw [quiet_applyRevision change before _ after done]
    simp [revision]
  · rename_i compared
    simp only [attempt_bind, attempt_get, Except.ok_bind, attempt_ofExcept, Except.bind_eq_ok_iff,
      Except.map_eq_ok_iff] at done
    obtain ⟨_, ⟨stored, found, rfl⟩, ⟨settled, between⟩, resolved, done⟩ := done
    have later : after.context.skipsValidation = between.context.skipsValidation := by
      cases settled with
      | none => exact quiet_pure _ _ _ _ done
      | some vector =>
          exact quiet_bind (quiet_provideContent change payloads)
            (fun _ => quiet_bind (quiet_write change vector) fun _ => quiet_pure _) _ _ _ done
    rw [later, resolve_skips resolved]
    simp [compared]

end Change

namespace Slice

theorem applyChanges_skips_iff
    (done : attempt (applyChanges payloads changes outcome) before = .ok (result, after)) :
    after.context.skipsValidation = true ↔
      before.context.skipsValidation = true ∨
        ∃ change ∈ changes, change.kind ≠ .revisionTombstone ∧ change.Drops before.context.ignored := by
  induction changes generalizing before outcome with
  | nil =>
      cases done
      simp
  | cons change rest ih =>
      simp only [applyChanges, attempt_bind, Except.bind_eq_ok_iff] at done
      obtain ⟨⟨written, applied⟩, first, done⟩ := done
      obtain ⟨step, progress⟩ := Change.attempt_apply first
      have flag := Change.apply_skips first
      simp only [List.exists_mem_cons_iff]
      cases written with
      | none =>
          rw [ih done, flag, progress.ignored, or_assoc]
      | some vector =>
          simp only [attempt_bind, Except.bind_eq_ok_iff] at done
          obtain ⟨⟨_, merged⟩, entered, done⟩ := done
          obtain ⟨text, same⟩ := exists_text_of_mergeVector step.raises.legible entered
          rw [ih done, same]
          change applied.context.skipsValidation = true ∨
            (∃ later ∈ rest, _ ∧ later.Drops applied.context.ignored) ↔ _
          rw [flag, progress.ignored, or_assoc]

theorem startFrom_skips_iff (legible : previous.Legible)
    (done : attempt (startFrom previous) before = .ok ((), after)) :
    after.context.skipsValidation = true ↔
      before.context.skipsValidation = true ∨ 0 < previous.countIn before.context.ignored := by
  have quiet := quiet_mergeVector (legible.without before.context.ignored)
  unfold startFrom at done
  split at done
  · simp only [attempt_bind, attempt_get, Except.ok_bind] at done
    split at done
    · rename_i some
      simp only [attempt_bind, attempt_changeContext, Except.ok_bind] at done
      rw [quiet _ _ _ done]
      exact ⟨fun _ => .inr some, fun _ => rfl⟩
    · rename_i nothing
      rw [quiet _ _ _ done]
      simp [nothing]
  · rename_i nothing
    cases done
    obtain rfl : previous = .empty := ChangeVector.isEmpty_iff.mp (by simpa using nothing)
    exact (or_iff_left (Nat.lt_irrefl 0)).symm

theorem Executed.skips_iff {stored : Option ReplicationState} {started applied : Workspace}
    {text : Option String} {record : Bytes}
    (executed : slice.Executed before after outcome stored previous started applied text record) :
    after.context.skipsValidation = true ↔
      before.context.skipsValidation = true ∨ 0 < previous.countIn before.context.ignored ∨
        ∃ change ∈ slice.changes,
          change.kind ≠ .revisionTombstone ∧ change.Drops before.context.ignored := by
  have ignored : started.context.ignored = before.context.ignored := by
    rw [← applyChanges_ignored executed.apply, executed.ignored]
  rw [executed.context]
  change applied.context.skipsValidation = true ↔ _
  rw [applyChanges_skips_iff executed.apply, startFrom_skips_iff executed.legible executed.start,
    ignored, or_assoc]

/-- After a slice was executed in a context of its own, the check is off exactly if the persisted
vector has entries of ignored instances, or the vector of some change that is not the tombstone of a
revision does. -/
theorem skipsValidation_iff {store : Partition}
    (done : attempt slice.execute ⟨.ignoring ignored, store.begin⟩ = .ok (outcome, after)) :
    after.context.skipsValidation = true ↔
      (∃ previous, store.databaseVector = .ok previous ∧
        ∃ entry ∈ previous.entries, entry.instanceId ∈ ignored) ∨
      ∃ change ∈ slice.changes, change.kind ≠ .revisionTombstone ∧ change.Drops ignored := by
  obtain ⟨stored, previous, started, applied, text, record, executed⟩ := attempt_execute_iff.mp done
  have persisted : store.databaseVector = .ok previous :=
    (congrArg (· >>= _) executed.read).trans executed.parsed
  have checks : (Context.ignoring ignored).skipsValidation = false :=
    Context.skipsValidation_ignoreAll ignored .fresh
  rw [executed.skips_iff, checks, ChangeVector.countIn_pos_iff, persisted]
  simp [Context.mem_ignored_ignoring, Change.drops_ignoring]

theorem skipsValidation_iff_lateArrivals :
    ∃ outcome after, attempt Partition.lateArrivals.execute
        ⟨.ignoring ["X"], (Partition.create .memory).begin⟩ = .ok (outcome, after) ∧
      after.context.skipsValidation = true ∧
      (after.context.skipsValidation = true ↔
        (∃ previous, (Partition.create .memory).databaseVector = .ok previous ∧
          ∃ entry ∈ previous.entries, entry.instanceId ∈ ["X"]) ∨
        ∃ change ∈ Partition.lateArrivals.changes,
          change.kind ≠ .revisionTombstone ∧ change.Drops ["X"]) := by
  have off : (attempt Partition.lateArrivals.execute
      ⟨.ignoring ["X"], (Partition.create .memory).begin⟩).map
        (fun left => left.2.context.skipsValidation) = .ok true := by decide +kernel
  obtain ⟨⟨outcome, after⟩, done, off⟩ := Except.map_eq_ok_iff.mp off
  exact ⟨outcome, after, done, off, skipsValidation_iff done⟩

def revisionOfIgnored : Slice :=
  ⟨"north", 5, [.change ⟨⟨"RV:5-A, RV:3-X", 5, .epoch, 0⟩, .revisionTombstone "RV:1-A" "users"⟩]⟩

/-- What is dropped from the tombstone of a revision is not noticed, though all of the slice had to be
written. -/
theorem skipsValidation_misses_revision :
    ¬ ∀ (store : Partition) (ignored : List String) (slice : Slice) (outcome : SliceOutcome)
      (after : Workspace),
      attempt slice.execute ⟨.ignoring ignored, store.begin⟩ = .ok (outcome, after) →
      outcome.skipped = 0 → (∃ change ∈ slice.changes, change.Drops ignored) →
      after.context.skipsValidation = true := by
  intro notices
  have left : (attempt revisionOfIgnored.execute
      ⟨.ignoring ["X"], (Partition.create .memory).begin⟩).map
        (fun left => (left.1, left.2.context.skipsValidation)) =
      .ok (⟨1, 0⟩, false) := by decide +kernel
  obtain ⟨⟨outcome, after⟩, done, same⟩ := Except.map_eq_ok_iff.mp left
  obtain ⟨rfl, checks⟩ := Prod.mk.inj same
  have drops : ∃ change ∈ revisionOfIgnored.changes, change.Drops ["X"] :=
    ⟨_, List.mem_singleton_self _, ⟨[⟨"RV", 5, "A"⟩, ⟨"RV", 3, "X"⟩], by decide⟩, by decide +kernel,
      ⟨"RV", 3, "X"⟩, by decide, rfl, by decide⟩
  have off := notices _ _ _ _ after done rfl drops
  exact Bool.false_ne_true (checks.symm.trans off)

end Slice

end DocumentReplication
