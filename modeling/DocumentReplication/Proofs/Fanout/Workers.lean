import DocumentReplication.Fanout.Workers
import DocumentReplication.Proofs.Fanout.Queue

/-!
Workers apply the slices of a batch one by one, and each partition reports on its own slice. A batch
only counts as applied if every report says that the slice was committed, or that there was nothing
to do.
-/

namespace DocumentReplication

variable {workers next : Workers} {slice : PartitionSlice} {slices : List PartitionSlice}
  {barrier : Barrier} {source : String} {lastEtag : Int64} {partition : Nat}
  {outcome : SliceOutcome}

namespace Barrier

variable {report : Except Fault SliceOutcome}

theorem get?_report (barrier : Barrier) (partition other : Nat)
    (outcome : Except Fault SliceOutcome) :
    (barrier.report partition outcome).reports.get? other =
      if barrier.awaits partition = true ∧ partition = other then some outcome
      else barrier.reports.get? other := by
  unfold Barrier.report
  by_cases awaited : barrier.awaits partition = true
  · simp [awaited, Dictionary.get?_insert]
  · simp [awaited]

theorem get?_report_of_some (found : barrier.reports.get? partition = some report) (other : Nat)
    (outcome : Except Fault SliceOutcome) :
    (barrier.report other outcome).reports.get? partition = some report := by
  rw [get?_report, if_neg, found]
  rintro ⟨awaited, rfl⟩
  simp [awaits, Dictionary.contains, found] at awaited

@[simp] theorem expected_report (partition : Nat) (outcome : Except Fault SliceOutcome)
    (barrier : Barrier) : (barrier.report partition outcome).expected = barrier.expected := by
  unfold Barrier.report
  split <;> rfl

theorem awaits_report {other : Nat} (awaited : barrier.awaits partition = true)
    (apart : other ≠ partition) (outcome : Except Fault SliceOutcome) :
    (barrier.report other outcome).awaits partition = true := by
  unfold awaits Dictionary.contains at awaited ⊢
  rw [expected_report, get?_report, if_neg fun both => apart both.2]
  exact awaited

theorem awaits_arm {expected : Nat} (inside : partition < expected) :
    (arm expected).awaits partition = true := by
  simp [arm, awaits, inside, Dictionary.contains]

end Barrier

namespace BatchOutcome

variable {outcomes : List (Nat × Except Fault SliceOutcome)} {fault : Fault}

theorem ofOutcomes_of_find? (ending : (faults outcomes).find? (·.endsConnection) = some fault) :
    ofOutcomes outcomes = .error fault := by
  simp only [ofOutcomes, ending]

theorem ofOutcomes_of_cons {rest : List Fault}
    (staying : (faults outcomes).find? (·.endsConnection) = none)
    (listed : faults outcomes = fault :: rest) :
    ofOutcomes outcomes = .ok (.attachmentsMissing fault) := by
  rw [listed] at staying
  simp only [ofOutcomes, listed, staying]

theorem ofOutcomes_of_nil (nothing : faults outcomes = []) :
    ofOutcomes outcomes = .ok (.applied (total outcomes)) := by
  simp only [ofOutcomes, nothing, List.find?_nil]

theorem ofOutcomes_eq_applied
    (done : ofOutcomes outcomes = .ok (.applied outcome)) :
    ∀ report ∈ outcomes, ∃ part, report.2 = .ok part := by
  have none : faults outcomes = [] := by
    unfold ofOutcomes at done
    simp only at done
    split at done <;> simp_all
  rintro ⟨partition, report⟩ member
  cases report with
  | ok part => exact ⟨part, rfl⟩
  | error fault =>
      have listed : fault ∈ faults outcomes := List.mem_filterMap.mpr ⟨_, member, rfl⟩
      rw [none] at listed
      contradiction

end BatchOutcome

/-- What a scheduler answers to one slice. -/
def Scheduler.answer (slice : Slice) (scheduler : Scheduler) : Except Fault SliceOutcome :=
  (scheduler.submit [slice.execute]).1.headD (.error (.transaction .schedulerStopped))

namespace Workers

theorem getElem?_stores {scheduler : Scheduler}
    (found : workers.schedulers[partition]? = some scheduler) :
    workers.stores[partition]? = some scheduler.store := by
  have inside := (List.getElem?_eq_some_iff.mp found).1
  rw [stores, List.getElem?_append_left (by simpa using inside), List.getElem?_map, found]
  rfl

/-- The same workers, some slices later, each admitted to its partition. -/
structure Proceeds (admitted : Nat → Slice → Prop) (workers next : Workers) : Prop where
  partitionCount : next.partitionCount = workers.partitionCount
  served : next.schedulers.length = workers.schedulers.length
  unserved : next.unserved = workers.unserved
  proceeds : ∀ (index : Nat) (scheduler : Scheduler), workers.schedulers[index]? = some scheduler →
    ∃ later : Scheduler, next.schedulers[index]? = some later ∧
      scheduler.Proceeds (admitted index) later

namespace Proceeds

variable {admitted : Nat → Slice → Prop}

theorem refl (admitted : Nat → Slice → Prop) (workers : Workers) :
    workers.Proceeds admitted workers :=
  ⟨rfl, rfl, rfl, fun _ scheduler found => ⟨scheduler, found, .refl _ scheduler⟩⟩

theorem trans {middle : Workers} (one : workers.Proceeds admitted middle)
    (two : middle.Proceeds admitted next) : workers.Proceeds admitted next := by
  refine ⟨two.partitionCount.trans one.partitionCount, two.served.trans one.served,
    two.unserved.trans one.unserved, fun index scheduler found => ?_⟩
  obtain ⟨between, there, first⟩ := one.proceeds index scheduler found
  obtain ⟨later, last, second⟩ := two.proceeds index between there
  exact ⟨later, last, first.trans second⟩

theorem exists_before (proceeds : workers.Proceeds admitted next) {index : Nat} {later : Scheduler}
    (found : next.schedulers[index]? = some later) :
    ∃ scheduler, workers.schedulers[index]? = some scheduler ∧
      scheduler.Proceeds (admitted index) later := by
  have inside : index < workers.schedulers.length := by
    rw [← proceeds.served]
    exact (List.getElem?_eq_some_iff.mp found).1
  obtain ⟨other, there, runs⟩ := proceeds.proceeds index _ (List.getElem?_eq_getElem inside)
  rw [found] at there
  cases there
  exact ⟨_, List.getElem?_eq_getElem inside, runs⟩

theorem set {index : Nat} {scheduler later : Scheduler}
    (found : workers.schedulers[index]? = some scheduler)
    (proceeds : scheduler.Proceeds (admitted index) later) :
    workers.Proceeds admitted
      { workers with schedulers := workers.schedulers.set index later } := by
  refine ⟨rfl, by simp, rfl, fun other known there => ?_⟩
  simp only [List.getElem?_set]
  by_cases met : index = other
  · subst met
    rw [found] at there
    cases there
    have inside : index < workers.schedulers.length := (List.getElem?_eq_some_iff.mp found).1
    exact ⟨later, by simp [inside], proceeds⟩
  · exact ⟨known, by rw [if_neg met, there], .refl _ known⟩

/-- The store of a partition comes out of the store it had before, and slices admitted to it. -/
theorem getElem?_stores {store : Partition} (proceeds : workers.Proceeds admitted next)
    (found : next.stores[partition]? = some store) :
    ∃ first ignored, workers.stores[partition]? = some first ∧
      first.Runs (admitted partition) ignored store := by
  by_cases served : partition < next.schedulers.length
  · have there := List.getElem?_eq_getElem served
    obtain ⟨scheduler, before, -, runs⟩ := proceeds.exists_before there
    obtain rfl := Option.some.inj ((Workers.getElem?_stores there).symm.trans found)
    exact ⟨scheduler.store, _, Workers.getElem?_stores before, runs⟩
  · have outside : (next.schedulers.map (·.store)).length ≤ partition := by
      simpa using Nat.le_of_not_lt served
    rw [stores, List.getElem?_append_right outside, proceeds.unserved] at found
    refine ⟨store, [], ?_, .refl store⟩
    rw [List.length_map, proceeds.served] at found outside
    rw [stores, List.getElem?_append_right (by simpa using outside), List.length_map, found]

end Proceeds

/-- The same workers, some verified slices later. -/
structure Follows (workers next : Workers) : Prop where
  partitionCount : next.partitionCount = workers.partitionCount
  served : next.schedulers.length = workers.schedulers.length
  unserved : next.unserved = workers.unserved
  follows : ∀ (index : Nat) (scheduler : Scheduler), workers.schedulers[index]? = some scheduler →
    ∃ later : Scheduler, next.schedulers[index]? = some later ∧ scheduler.Follows later

theorem Follows.of_proceeds (proceeds : workers.Proceeds (fun _ => Slice.Verified) next) :
    workers.Follows next :=
  ⟨proceeds.partitionCount, proceeds.served, proceeds.unserved, fun index scheduler found =>
    (proceeds.proceeds index scheduler found).imp fun _ later => ⟨later.1, .of_proceeds later.2⟩⟩

theorem Follows.proceeds (follows : workers.Follows next) :
    workers.Proceeds (fun _ => Slice.Verified) next :=
  ⟨follows.partitionCount, follows.served, follows.unserved, fun index scheduler found =>
    (follows.follows index scheduler found).imp fun _ later => ⟨later.1, later.2.proceeds⟩⟩

theorem Follows.refl (workers : Workers) : workers.Follows workers :=
  .of_proceeds (.refl _ workers)

theorem Follows.trans {middle : Workers} (one : workers.Follows middle)
    (two : middle.Follows next) : workers.Follows next :=
  .of_proceeds (one.proceeds.trans two.proceeds)

theorem Follows.exists_before (follows : workers.Follows next) {index : Nat} {later : Scheduler}
    (found : next.schedulers[index]? = some later) :
    ∃ scheduler, workers.schedulers[index]? = some scheduler ∧ scheduler.Follows later :=
  (follows.proceeds.exists_before found).imp fun _ before => ⟨before.1, .of_proceeds before.2⟩

/-- Some time between two moments of the workers a slice was committed to a partition. -/
def Commits (partition : Nat) (slice : Slice) (workers next : Workers) : Prop :=
  ∃ scheduler later, workers.schedulers[partition]? = some scheduler ∧
    next.schedulers[partition]? = some later ∧ scheduler.Commits slice later

theorem Commits.of_follows {slice : Slice} {first last : Workers} (before : workers.Follows first)
    (commits : first.Commits partition slice last) (after : last.Follows next) :
    workers.Commits partition slice next := by
  obtain ⟨middle, between, found, left, committed⟩ := commits
  obtain ⟨scheduler, there, earlier⟩ := before.exists_before found
  obtain ⟨later, final, rest⟩ := after.follows _ _ left
  exact ⟨scheduler, later, there, final, committed.of_follows earlier rest⟩

/-- The scheduler of a partition runs a cycle of slices, whoever submitted them. -/
def cycle (partition : Nat) (slices : List Slice) (workers : Workers) : Workers :=
  match workers.schedulers[partition]? with
  | none => workers
  | some scheduler =>
    { workers with schedulers :=
        workers.schedulers.set partition (scheduler.cycle (slices.map Slice.execute)).2 }

theorem cycle_proceeds {admitted : Nat → Slice → Prop} {slices : List Slice}
    (all : ∀ slice ∈ slices, admitted partition slice) (workers : Workers) :
    workers.Proceeds admitted (workers.cycle partition slices) := by
  unfold cycle
  split
  · exact .refl admitted workers
  · rename_i scheduler found
    exact .set found (Scheduler.cycle_proceeds all scheduler)

theorem cycle_follows {slices : List Slice} (verified : ∀ slice ∈ slices, slice.Verified)
    (partition : Nat) (workers : Workers) : workers.Follows (workers.cycle partition slices) :=
  .of_proceeds (cycle_proceeds verified workers)

theorem apply_proceeds {admitted : Nat → Slice → Prop}
    (alone : admitted slice.partition ⟨source, lastEtag, slice.items⟩) (workers : Workers) :
    workers.Proceeds admitted (workers.apply source lastEtag slice).2 := by
  unfold apply
  split
  · exact .refl admitted workers
  · split
    · exact .refl admitted workers
    · split
      · exact .refl admitted workers
      · rename_i scheduler found
        exact .set found (Scheduler.submit_proceeds alone scheduler)

theorem apply_eq {items : List Item} {scheduler : Scheduler} (something : items ≠ [])
    (steady : workers.failing ≠ some partition)
    (found : workers.schedulers[partition]? = some scheduler) :
    workers.apply source lastEtag ⟨partition, items⟩ =
      (scheduler.answer ⟨source, lastEtag, items⟩, { workers with
        schedulers := workers.schedulers.set partition
          (scheduler.submit [Slice.execute ⟨source, lastEtag, items⟩]).2 }) := by
  unfold apply
  rw [List.isEmpty_eq_false_iff.mpr something, if_neg Bool.false_ne_true, if_neg steady, found]
  rfl

/-- A partition that was accepted is served, unless there was nothing to do. -/
theorem exists_of_apply {items : List Item} (something : items ≠ [])
    (accepted : (workers.apply source lastEtag ⟨partition, items⟩).1 = .ok outcome) :
    workers.failing ≠ some partition ∧
      ∃ scheduler, workers.schedulers[partition]? = some scheduler := by
  unfold apply at accepted
  rw [List.isEmpty_eq_false_iff.mpr something, if_neg Bool.false_ne_true] at accepted
  split at accepted
  · contradiction
  · rename_i steady
    refine ⟨steady, ?_⟩
    split at accepted
    · contradiction
    · rename_i scheduler found
      exact ⟨scheduler, found⟩

/-- A slice with items that was applied is committed to the store of its partition. -/
theorem apply_committed (done : (workers.apply source lastEtag slice).1 = .ok outcome)
    (something : slice.items ≠ []) :
    workers.Commits slice.partition ⟨source, lastEtag, slice.items⟩
      (workers.apply source lastEtag slice).2 := by
  obtain ⟨steady, scheduler, found⟩ := exists_of_apply something done
  rw [apply_eq something steady found] at done ⊢
  have inside := (List.getElem?_eq_some_iff.mp found).1
  exact ⟨scheduler, _, found, List.getElem?_set_self inside, Scheduler.submit_commits done⟩

theorem dispatch_proceeds {admitted : Nat → Slice → Prop}
    (all : ∀ slice ∈ slices, admitted slice.partition ⟨source, lastEtag, slice.items⟩)
    (barrier : Barrier) (workers : Workers) :
    workers.Proceeds admitted (dispatch source lastEtag slices barrier workers).2 := by
  induction slices generalizing barrier workers with
  | nil => exact .refl admitted workers
  | cons slice rest ih =>
      exact (apply_proceeds (all slice List.mem_cons_self) workers).trans
        (ih (fun later member => all later (List.mem_cons_of_mem _ member)) _ _)

theorem dispatch_follows (verified : ∀ slice ∈ slices, ∀ item ∈ slice.items, item.Verified)
    (barrier : Barrier) (workers : Workers) :
    workers.Follows (dispatch source lastEtag slices barrier workers).2 :=
  .of_proceeds (dispatch_proceeds verified barrier workers)

theorem expected_dispatch (slices : List PartitionSlice) (barrier : Barrier) (workers : Workers) :
    (dispatch source lastEtag slices barrier workers).1.expected = barrier.expected := by
  induction slices generalizing barrier workers with
  | nil => rfl
  | cons slice rest ih => exact (ih _ _).trans (Barrier.expected_report ..)

theorem dispatch_keeps_report (slices : List PartitionSlice)
    (found : barrier.reports.get? partition = some report) :
    (dispatch source lastEtag slices barrier workers).1.reports.get? partition = some report := by
  induction slices generalizing barrier workers with
  | nil => exact found
  | cons slice rest ih => exact ih (Barrier.get?_report_of_some found _ _)

/-- Workers that are the same as far as one partition can tell. -/
structure SameAt (partition : Nat) (first last : Workers) : Prop where
  scheduler : last.schedulers[partition]? = first.schedulers[partition]?
  failing : last.failing = first.failing

theorem SameAt.refl (partition : Nat) (workers : Workers) : SameAt partition workers workers :=
  ⟨rfl, rfl⟩

theorem SameAt.trans {middle : Workers} (first : SameAt partition workers middle)
    (last : SameAt partition middle next) : SameAt partition workers next :=
  ⟨last.scheduler.trans first.scheduler, last.failing.trans first.failing⟩

theorem Commits.of_sameAt {slice : Slice} {middle : Workers}
    (commits : workers.Commits partition slice middle) (same : SameAt partition middle next) :
    workers.Commits partition slice next := by
  obtain ⟨scheduler, later, found, left, committed⟩ := commits
  exact ⟨scheduler, later, found, same.scheduler.trans left, committed⟩

/-- A slice leaves the other partitions alone. -/
theorem apply_apart (apart : slice.partition ≠ partition) (source : String) (lastEtag : Int64)
    (workers : Workers) : SameAt partition workers (workers.apply source lastEtag slice).2 := by
  unfold apply
  split
  · exact .refl ..
  · split
    · exact .refl ..
    · split
      · exact .refl ..
      · exact ⟨List.getElem?_set_ne apart, rfl⟩

/-- What comes of a slice is a matter of its partition alone. -/
theorem apply_at {first last : Workers} (same : SameAt slice.partition first last) (source : String)
    (lastEtag : Int64) :
    (last.apply source lastEtag slice).1 = (first.apply source lastEtag slice).1 ∧
      SameAt slice.partition (first.apply source lastEtag slice).2
        (last.apply source lastEtag slice).2 := by
  unfold apply
  rw [same.failing, same.scheduler]
  split
  · exact ⟨rfl, same⟩
  · split
    · exact ⟨rfl, same⟩
    · cases found : first.schedulers[slice.partition]? with
      | none => exact ⟨rfl, same⟩
      | some scheduler =>
          have there := same.scheduler.trans found
          have inFirst := (List.getElem?_eq_some_iff.mp found).1
          have inLast := (List.getElem?_eq_some_iff.mp there).1
          refine ⟨rfl, ?_, rfl⟩
          simp only [List.getElem?_set_self inFirst, List.getElem?_set_self inLast]

theorem dispatch_apart (apart : ∀ slice ∈ slices, slice.partition ≠ partition) (source : String)
    (lastEtag : Int64) (barrier : Barrier) (workers : Workers) :
    SameAt partition workers (dispatch source lastEtag slices barrier workers).2 := by
  induction slices generalizing barrier workers with
  | nil => exact .refl ..
  | cons slice rest ih =>
      exact (apply_apart (apart slice List.mem_cons_self) source lastEtag workers).trans
        (ih (fun later member => apart later (List.mem_cons_of_mem _ member)) _ _)

/-- Slices of different partitions come to what each would come to by itself. -/
theorem dispatch_at (source : String) (lastEtag : Int64) (workers : Workers)
    (distinct : (slices.map (·.partition)).Nodup)
    (awaited : ∀ slice ∈ slices, barrier.awaits slice.partition = true) (member : slice ∈ slices) :
    (dispatch source lastEtag slices barrier workers).1.reports.get? slice.partition =
        some (workers.apply source lastEtag slice).1 ∧
      SameAt slice.partition (workers.apply source lastEtag slice).2
        (dispatch source lastEtag slices barrier workers).2 := by
  induction slices generalizing barrier workers with
  | nil => contradiction
  | cons first rest ih =>
      simp only [List.map_cons, List.nodup_cons] at distinct
      have apart (other : PartitionSlice) (inRest : other ∈ rest) :
          first.partition ≠ other.partition := fun same =>
        distinct.1 (same ▸ List.mem_map_of_mem inRest)
      rcases List.mem_cons.mp member with rfl | inRest
      · have reported : (barrier.report slice.partition
            (workers.apply source lastEtag slice).1).reports.get? slice.partition =
              some (workers.apply source lastEtag slice).1 := by
          rw [Barrier.get?_report, if_pos ⟨awaited slice List.mem_cons_self, rfl⟩]
        exact ⟨dispatch_keeps_report rest reported,
          dispatch_apart (fun other inRest => (apart other inRest).symm) ..⟩
      · obtain ⟨reported, left⟩ := ih (workers.apply source lastEtag first).2 distinct.2
          (fun other otherMember => Barrier.awaits_report
            (awaited other (List.mem_cons_of_mem _ otherMember)) (apart other otherMember) _) inRest
        obtain ⟨outcome, same⟩ := apply_at
          (apply_apart (apart slice inRest) source lastEtag workers) source lastEtag
        exact ⟨reported.trans (congrArg some outcome), same.trans left⟩

/-- Where there is a slice for every partition, each reports what it would come to by itself. -/
theorem dispatch_at_arm {count : Nat} (source : String) (lastEtag : Int64) (workers : Workers)
    (partitions : (slices.map (·.partition)).Perm (List.range count)) (member : slice ∈ slices) :
    (dispatch source lastEtag slices (.arm count) workers).1.reports.get? slice.partition =
        some (workers.apply source lastEtag slice).1 ∧
      SameAt slice.partition (workers.apply source lastEtag slice).2
        (dispatch source lastEtag slices (.arm count) workers).2 := by
  refine dispatch_at source lastEtag workers (partitions.nodup_iff.mpr List.nodup_range)
    (fun slice member => Barrier.awaits_arm (List.mem_range.mp ?_)) member
  exact partitions.mem_iff.mp (List.mem_map_of_mem member)

/-- Where every partition reported a success, every slice with items was committed, and what came of
it is in the stores that are left. -/
theorem dispatch_committed {total : SliceOutcome}
    (partitions : slices.map (·.partition) = List.range slices.length)
    (applied : BatchOutcome.ofOutcomes
      (dispatch source lastEtag slices (.arm slices.length) workers).1.outcomes = .ok (.applied total))
    (member : slice ∈ slices) (something : slice.items ≠ []) :
    workers.Commits slice.partition ⟨source, lastEtag, slice.items⟩
      (dispatch source lastEtag slices (.arm slices.length) workers).2 := by
  obtain ⟨reported, left⟩ :=
    dispatch_at_arm source lastEtag workers (List.Perm.of_eq partitions) member
  have listed : (slice.partition, (workers.apply source lastEtag slice).1) ∈
      (dispatch source lastEtag slices (.arm slices.length) workers).1.outcomes := by
    refine List.mem_map.mpr ⟨slice.partition, ?_, ?_⟩
    · rw [expected_dispatch, Barrier.arm, ← partitions]
      exact List.mem_map_of_mem member
    · rw [Barrier.outcomeOf, reported, Option.getD_some]
  obtain ⟨outcome, done⟩ := BatchOutcome.ofOutcomes_eq_applied applied _ listed
  exact (apply_committed done something).of_sameAt left

end Workers

end DocumentReplication
