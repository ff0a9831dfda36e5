import DocumentReplication.Proofs.Commit.Resend
import DocumentReplication.Proofs.Fanout.Workers
import DocumentReplication.Proofs.Wire.Batch
import Mathlib.Data.List.Forall2

/-!
Batches that come again with their payloads. Some partitions committed their slices when the batch
came without payloads and others did not, but none of them can tell afterwards: in each the second
attempt leaves what a single attempt with payloads would have left.
-/

namespace DocumentReplication

open BatchQueue (slicesFor)

variable {source : String} {lastEtag : Int64} {body : BatchBody}

/-- The slices of one partition when a batch comes without its payloads and with them. -/
structure BatchBody.Splits (body : BatchBody) (bare full : List Item) : Prop where
  changes : ∀ item ∈ bare, ∃ change ∈ body.changes, item = .change change
  payloads : ∃ copies, full = bare ++ copies ∧
    ∀ item ∈ copies, ∃ payload ∈ body.payloads, item = .payload payload.1 payload.2

namespace BatchBody.Splits

variable {bare full : List Item}

theorem twins (splits : body.Splits bare full) (source : String) (lastEtag : Int64) :
    Slice.Twins ⟨source, lastEtag, bare⟩ ⟨source, lastEtag, full⟩ := by
  obtain ⟨copies, rfl, copied⟩ := splits.payloads
  refine ⟨rfl, rfl, ?_⟩
  simp only [Slice.changes, List.filterMap_append]
  refine (congrArg _ (List.filterMap_eq_nil_iff.mpr fun item member => ?_)).trans
    (List.append_nil _)
  obtain ⟨payload, -, rfl⟩ := copied item member
  rfl

theorem payloads_bare (splits : body.Splits bare full) :
    Slice.payloads ⟨source, lastEtag, bare⟩ = .empty := by
  unfold Slice.payloads
  refine congrArg Dictionary.ofList (List.filterMap_eq_nil_iff.mpr fun item member => ?_)
  obtain ⟨change, -, rfl⟩ := splits.changes item member
  rfl

theorem mem_changes (splits : body.Splits bare full) {change : Change}
    (member : change ∈ Slice.changes ⟨source, lastEtag, full⟩) : change ∈ body.changes := by
  rw [(splits.twins source lastEtag).changes, Slice.mem_changes] at member
  obtain ⟨_, listed, same⟩ := splits.changes _ member
  cases same
  exact listed

theorem mem_payloads (splits : body.Splits bare full) (source : String) (lastEtag : Int64)
    {hash : String} {content : Bytes}
    (found : (Slice.payloads ⟨source, lastEtag, full⟩).get? hash = some content) :
    (hash, content) ∈ body.payloads := by
  have member := Slice.mem_of_payloads found
  obtain ⟨copies, rfl, copied⟩ := splits.payloads
  rcases List.mem_append.mp member with inBare | inCopies
  · obtain ⟨_, -, same⟩ := splits.changes _ inBare
    cases same
  · obtain ⟨_, listed, same⟩ := copied _ inCopies
    cases same
    exact listed

end BatchBody.Splits

/-- A store that slices led to, and in which no content has the hash of another content among the
payloads. -/
structure Partition.Admits (sent : List (String × Bytes)) (store : Partition) : Prop where
  stripped : store.begin.Stripped
  addressed : store.begin.ContentAddressed
  unique : ∀ payload ∈ sent, ∀ entry ∈ store.entriesOf .attachmentBlobs,
    contentHash entry.value = contentHash payload.2 → entry.value = payload.2

theorem Partition.Admits.stocks {store : Partition} {payloads : Dictionary String Bytes}
    (admits : store.Admits body.payloads)
    (hashed : ∀ payload ∈ body.payloads, contentHash payload.2 = payload.1)
    (sent : ∀ hash content, payloads.get? hash = some content → (hash, content) ∈ body.payloads) :
    store.begin.Stocks payloads := by
  refine admits.addressed.stocks (fun hash content found =>
    hashed (hash, content) (sent hash content found)) ?_
  intro hash content found place blob there
  exact admits.unique (hash, content) (sent hash content found) blob
    (Partition.mem_entriesOf_iff.mpr ⟨place, there⟩)

namespace Scheduler

theorem submit_alone {α : Type} (command : Command α) (scheduler : Scheduler) :
    scheduler.submit [command] =
      if scheduler.stopped then ([.error (.transaction .schedulerStopped)], scheduler)
      else match transact scheduler.settings.ignoredIds command scheduler.store with
        | .ok (result, store) => ([.ok result],
          { scheduler with store := store, stats := scheduler.stats.noteShared 1 })
        | .error fault => ([.error fault],
          { scheduler with stats := scheduler.stats.noteAlone false }) := by
  rw [submit_singleton, cycle, transact_runAll_singleton]
  cases transact scheduler.settings.ignoredIds command scheduler.store <;> rfl

variable {bare full : List Item} {scheduler : Scheduler} {outcome : SliceOutcome}

theorem submit_resend (splits : body.Splits bare full)
    (hashed : ∀ payload ∈ body.payloads, contentHash payload.2 = payload.1)
    (kept : ∀ change ∈ body.changes, change.kind ≠ .attachmentTombstone)
    (admits : scheduler.store.Admits body.payloads)
    (accepted : (scheduler.submit [Slice.execute ⟨source, lastEtag, bare⟩]).2.answer
      ⟨source, lastEtag, full⟩ = .ok outcome) :
    (∃ result, scheduler.answer ⟨source, lastEtag, full⟩ = .ok result) ∧
      ((scheduler.submit [Slice.execute ⟨source, lastEtag, bare⟩]).2.submit
          [Slice.execute ⟨source, lastEtag, full⟩]).2.store.SameContents
        (scheduler.submit [Slice.execute ⟨source, lastEtag, full⟩]).2.store := by
  have stocks := admits.stocks hashed fun hash content found =>
    splits.mem_payloads source lastEtag found
  unfold answer at accepted ⊢
  simp only [submit_alone] at accepted ⊢
  by_cases running : scheduler.stopped = true
  · simp only [running, if_true] at accepted
    contradiction
  · simp only [if_neg running] at accepted ⊢
    cases first : transact scheduler.settings.ignoredIds
        (Slice.execute ⟨source, lastEtag, bare⟩) scheduler.store with
    | error fault =>
        -- The partition still has what it had.
        simp only [first, if_neg running] at accepted ⊢
        cases second : transact scheduler.settings.ignoredIds
            (Slice.execute ⟨source, lastEtag, full⟩) scheduler.store with
        | error other =>
            rw [second] at accepted
            contradiction
        | ok found => exact ⟨⟨found.1, rfl⟩, .refl _⟩
    | ok committed =>
        obtain ⟨result, once, repeated, again, fresh, resent, same⟩ :=
          transact_resend (splits.twins source lastEtag) splits.payloads_bare
            (fun change member => kept change (splits.mem_changes member)) stocks admits.stripped first
        simp only [if_neg running, fresh, resent]
        exact ⟨⟨result, rfl⟩, same⟩

end Scheduler

theorem BatchOutcome.ofOutcomes_of_ok {outcomes : List (Nat × Except Fault SliceOutcome)}
    (accepted : ∀ report ∈ outcomes, ∃ part, report.2 = .ok part) :
    ofOutcomes outcomes = .ok (.applied (total outcomes)) := by
  have nothing : faults outcomes = [] := by
    refine List.filterMap_eq_nil_iff.mpr fun (partition, report) member => ?_
    obtain ⟨part, done⟩ := accepted _ member
    cases done
    rfl
  exact ofOutcomes_of_nil nothing

namespace Workers

variable {workers resent : Workers} {partition count : Nat} {bare full : List Item}
  {outcome total : SliceOutcome}

/-- Workers with as many stores, and with the same contents in each. -/
def SameStores (first last : Workers) : Prop :=
  List.Forall₂ Partition.SameContents first.stores last.stores

/-- With the same contents in the store of one partition, if both serve it. -/
def SameStoreAt (partition : Nat) (first last : Workers) : Prop :=
  ∀ one other, first.schedulers[partition]? = some one → last.schedulers[partition]? = some other →
    one.store.SameContents other.store

theorem SameStoreAt.of_scheduler {first last : Workers}
    (same : first.schedulers[partition]? = last.schedulers[partition]?) :
    SameStoreAt partition first last := by
  intro one other found there
  rw [same, there] at found
  cases found
  exact .refl _

/-- What slices leave alone. -/
structure SameShape (first last : Workers) : Prop where
  failing : last.failing = first.failing
  unserved : last.unserved = first.unserved
  served : last.schedulers.length = first.schedulers.length

theorem SameShape.refl (workers : Workers) : SameShape workers workers := ⟨rfl, rfl, rfl⟩

theorem SameShape.symm {first last : Workers} (same : SameShape first last) :
    SameShape last first :=
  ⟨same.failing.symm, same.unserved.symm, same.served.symm⟩

theorem SameShape.trans {first middle last : Workers} (one : SameShape first middle)
    (two : SameShape middle last) : SameShape first last :=
  ⟨two.failing.trans one.failing, two.unserved.trans one.unserved, two.served.trans one.served⟩

theorem sameShape_apply (source : String) (lastEtag : Int64) (slice : PartitionSlice)
    (workers : Workers) :
    SameShape workers (workers.apply source lastEtag slice).2 := by
  unfold apply
  split
  · exact .refl _
  · split
    · exact .refl _
    · split
      · exact .refl _
      · exact ⟨rfl, rfl, List.length_set ..⟩

theorem sameShape_dispatch (source : String) (lastEtag : Int64) (slices : List PartitionSlice)
    (barrier : Barrier) (workers : Workers) :
    SameShape workers (dispatch source lastEtag slices barrier workers).2 := by
  induction slices generalizing barrier workers with
  | nil => exact .refl _
  | cons slice rest ih => exact (sameShape_apply source lastEtag slice workers).trans (ih _ _)

theorem apply_resend (splits : body.Splits bare full)
    (hashed : ∀ payload ∈ body.payloads, contentHash payload.2 = payload.1)
    (kept : ∀ change ∈ body.changes, change.kind ≠ .attachmentTombstone)
    (admits : ∀ scheduler ∈ workers.schedulers, scheduler.store.Admits body.payloads)
    (accepted : ((workers.apply source lastEtag ⟨partition, bare⟩).2.apply source lastEtag
      ⟨partition, full⟩).1 = .ok outcome) :
    (∃ result, (workers.apply source lastEtag ⟨partition, full⟩).1 = .ok result) ∧
      SameStoreAt partition
        ((workers.apply source lastEtag ⟨partition, bare⟩).2.apply source lastEtag
          ⟨partition, full⟩).2
        (workers.apply source lastEtag ⟨partition, full⟩).2 := by
  by_cases nothing : bare = []
  · subst nothing
    exact ⟨⟨outcome, accepted⟩, .of_scheduler rfl⟩
  · obtain ⟨copies, same, -⟩ := splits.payloads
    have something : full ≠ [] := by
      rw [same]
      exact List.append_ne_nil_of_left_ne_nil nothing copies
    -- The first attempt neither fails nor serves a partition that the second one does not.
    obtain ⟨steady, later, served⟩ := exists_of_apply something accepted
    have shape := sameShape_apply source lastEtag ⟨partition, bare⟩ workers
    rw [shape.failing] at steady
    have inside : partition < workers.schedulers.length := by
      rw [← shape.served]
      exact (List.getElem?_eq_some_iff.mp served).1
    have found := List.getElem?_eq_getElem inside
    generalize workers.schedulers[partition] = scheduler at found
    rw [apply_eq nothing steady found] at accepted ⊢
    let left : Workers := { workers with
      schedulers := workers.schedulers.set partition
        (scheduler.submit [Slice.execute ⟨source, lastEtag, bare⟩]).2 }
    have there : left.schedulers[partition]? =
      some (scheduler.submit [Slice.execute ⟨source, lastEtag, bare⟩]).2 :=
        List.getElem?_set_self inside
    have again := @apply_eq left source lastEtag partition full _ something steady there
    rw [again] at accepted ⊢
    rw [apply_eq something steady found]
    obtain ⟨fresh, contents⟩ := Scheduler.submit_resend splits hashed kept
      (admits scheduler (List.mem_of_getElem? found)) accepted
    refine ⟨fresh, fun again once first last => ?_⟩
    simp only [left, List.set_set, List.getElem?_set_self inside, Option.some.injEq] at first last
    subst first last
    exact contents

/-- Where there is a slice for every partition, each reports what its slice would come to alone. -/
theorem dispatch_slicesFor (source : String) (lastEtag : Int64) (workers : Workers)
    (items : Nat → List Item) (inside : partition < count) :
    (dispatch source lastEtag (slicesFor count items) (.arm count) workers).1.outcomeOf partition =
        (workers.apply source lastEtag ⟨partition, items partition⟩).1 ∧
      SameAt partition (workers.apply source lastEtag ⟨partition, items partition⟩).2
        (dispatch source lastEtag (slicesFor count items) (.arm count) workers).2 := by
  have partitions : (slicesFor count items).map (·.partition) = List.range count := by
    simp [slicesFor, Function.comp_def]
  have member : ⟨partition, items partition⟩ ∈ slicesFor count items :=
    List.mem_map.mpr ⟨partition, List.mem_range.mpr inside, rfl⟩
  obtain ⟨reported, left⟩ :=
    dispatch_at_arm source lastEtag workers (List.Perm.of_eq partitions) member
  exact ⟨by rw [Barrier.outcomeOf, reported, Option.getD_some], left⟩

theorem dispatch_beyond (source : String) (lastEtag : Int64) (workers : Workers)
    (items : Nat → List Item) (beyond : ¬ partition < count) :
    SameAt partition workers
      (dispatch source lastEtag (slicesFor count items) (.arm count) workers).2 := by
  refine dispatch_apart (fun slice member same => beyond ?_) ..
  obtain ⟨index, listed, rfl⟩ := List.mem_map.mp member
  exact same ▸ List.mem_range.mp listed

theorem sameStores_of_schedulers {first last : Workers} (shape : SameShape first last)
    (each : ∀ partition, SameStoreAt partition first last) : first.SameStores last := by
  have served : List.Forall₂ Partition.SameContents (first.schedulers.map (·.store))
      (last.schedulers.map (·.store)) := by
    rw [List.forall₂_map_left_iff, List.forall₂_map_right_iff, List.forall₂_iff_get]
    refine ⟨shape.served.symm, fun index inFirst inLast => ?_⟩
    exact each index _ _ (List.getElem?_eq_getElem inFirst) (List.getElem?_eq_getElem inLast)
  have unserved : List.Forall₂ Partition.SameContents first.unserved last.unserved := by
    rw [shape.unserved]
    exact List.forall₂_same.mpr fun store _ => .refl store
  exact List.rel_append served unserved

/-- Has every partition apply its slice of a batch, and gathers what they report. -/
def distribute (source : String) (lastEtag : Int64) (count : Nat) (items : Nat → List Item)
    (workers : Workers) : Except Fault BatchOutcome × Workers :=
  let (barrier, next) := workers.dispatch source lastEtag (slicesFor count items) (.arm count)
  (BatchOutcome.ofOutcomes barrier.outcomes, next)

section Resent

variable {bare full : Nat → List Item}
  (splits : ∀ partition, body.Splits (bare partition) (full partition))
  (hashed : ∀ payload ∈ body.payloads, contentHash payload.2 = payload.1)
  (kept : ∀ change ∈ body.changes, change.kind ≠ .attachmentTombstone)
  (admits : ∀ scheduler ∈ workers.schedulers, scheduler.store.Admits body.payloads)
  (nacked : (workers.distribute source lastEtag count bare).2 = resent)
  (accepted : (resent.distribute source lastEtag count full).1 = .ok (.applied total))

include splits hashed kept admits nacked accepted

/-- What a batch that came again does in one of its partitions. -/
theorem apply_resent (inside : partition < count) :
    (∃ result, (workers.apply source lastEtag ⟨partition, full partition⟩).1 = .ok result) ∧
      SameStoreAt partition (resent.apply source lastEtag ⟨partition, full partition⟩).2
        (workers.apply source lastEtag ⟨partition, full partition⟩).2 := by
  simp only [distribute] at nacked accepted
  -- When the batch came again, the partition was as its slice without payloads had left it.
  have left := (dispatch_slicesFor source lastEtag workers bare inside).2
  rw [nacked] at left
  obtain ⟨answered, after⟩ :=
    @apply_at ⟨partition, full partition⟩ _ _ left source lastEtag
  obtain ⟨outcome, done⟩ : ∃ outcome, (dispatch source lastEtag (slicesFor count full)
      (.arm count) resent).1.outcomeOf partition = .ok outcome := by
    refine BatchOutcome.ofOutcomes_eq_applied accepted (partition, _)
      (List.mem_map_of_mem (List.mem_range.mpr ?_))
    rwa [expected_dispatch]
  rw [(dispatch_slicesFor source lastEtag resent full inside).1, answered] at done
  unfold SameStoreAt
  rw [after.scheduler]
  exact apply_resend (splits partition) hashed kept admits done

/-- A batch that was accepted when it came again with its payloads would have been accepted if it had
come with them at once, and leaves the same stores. -/
theorem distribute_resend :
    (∃ total, (workers.distribute source lastEtag count full).1 = .ok (.applied total)) ∧
      SameStores (resent.distribute source lastEtag count full).2
        (workers.distribute source lastEtag count full).2 := by
  have each (partition : Nat) (inside : partition < count) :=
    apply_resent splits hashed kept admits nacked accepted inside
  simp only [distribute] at nacked ⊢
  constructor
  · refine ⟨_, BatchOutcome.ofOutcomes_of_ok fun report member => ?_⟩
    obtain ⟨partition, listed, rfl⟩ := List.mem_map.mp member
    rw [expected_dispatch] at listed
    have inside := List.mem_range.mp listed
    obtain ⟨result, done⟩ := (each partition inside).1
    exact ⟨result, (dispatch_slicesFor source lastEtag workers full inside).1.trans done⟩
  · have shape : SameShape workers resent := nacked ▸ sameShape_dispatch ..
    have once := sameShape_dispatch source lastEtag (slicesFor count full) (.arm count) workers
    have again := sameShape_dispatch source lastEtag (slicesFor count full) (.arm count) resent
    refine sameStores_of_schedulers (again.symm.trans (shape.symm.trans once)) fun partition => ?_
    by_cases inside : partition < count
    · unfold SameStoreAt
      rw [(dispatch_slicesFor source lastEtag resent full inside).2.scheduler,
        (dispatch_slicesFor source lastEtag workers full inside).2.scheduler]
      exact (each partition inside).2
    · have untouched := dispatch_beyond source lastEtag workers bare inside
      rw [nacked] at untouched
      apply SameStoreAt.of_scheduler
      rw [(dispatch_beyond source lastEtag resent full inside).scheduler, untouched.scheduler,
        (dispatch_beyond source lastEtag workers full inside).scheduler]

end Resent

end Workers

end DocumentReplication
