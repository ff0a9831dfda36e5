import DocumentReplication.Proofs.Commit.Accumulation
import DocumentReplication.Proofs.Commit.Readability

/-!
How far a store has followed its sources. Slices that are committed move the etag of their source to
the greatest one that was seen, never back, and the database change vector loses nothing but entries
of instances that one of their transactions ignored. Slices that fail leave everything as it was.
-/

namespace DocumentReplication

open Work
open ChangeVector (greater)

variable {ignored others : List String} {slice : Slice} {slices later : List Slice}
  {outcome : SliceOutcome} {store between next : Partition}

/-- The greatest of an etag that was reached before and the etags of slices from a source. -/
def Slice.furthest (source : String) (slices : List Slice) (reached : Option Int64) : Option Int64 :=
  (reached.toList ++ (slices.filter (·.source = source)).map (·.lastEtag)).max?

namespace Slice

variable {source : String} {reached : Option Int64}

theorem max?_append (etags more : List Int64) :
    (etags ++ more).max? = (etags.max?.toList ++ more).max? := by
  cases etags with
  | nil => rfl
  | cons etag rest => simp [List.max?]

theorem furthest_append (source : String) (slices later : List Slice) (reached : Option Int64) :
    furthest source (slices ++ later) reached =
      furthest source later (furthest source slices reached) := by
  rw [furthest, List.filter_append, List.map_append, ← List.append_assoc, max?_append, furthest,
    furthest]

theorem furthest_of_absent (absent : ∀ slice ∈ slices, slice.source ≠ source) :
    furthest source slices reached = reached := by
  have nothing : slices.filter (·.source = source) = [] := by
    simpa [List.filter_eq_nil_iff] using absent
  rw [furthest, nothing]
  cases reached <;> rfl

theorem furthest_singleton (slice : Slice) (source : String) (reached : Option Int64) :
    furthest source [slice] reached =
      greater reached (if slice.source = source then some slice.lastEtag else none) := by
  by_cases same : slice.source = source
  · cases reached <;> simp [furthest, same, greater, List.max?]
  · cases reached <;> simp [furthest, same, greater, List.max?]

/-- In a transaction of its own, the etag of a slice is all that the context takes note of. -/
theorem furthest_nextState (source : String) (slice : Slice) {context : Context}
    (nothing : context.etags = .empty) (state : ReplicationState) (text : Option String) :
    (slice.nextState context state text).lastEtagFrom.get? source =
      furthest source [slice] (state.lastEtagFrom.get? source) := by
  rw [furthest_singleton, nextState, get?_advance, get?_recordEtag, nothing, Dictionary.get?_empty]
  rfl

end Slice

namespace ChangeVector

variable {previous middle current : ChangeVector} {name : String} {etag : Int64}

theorem etagFor_without_eq_some_iff :
    (previous.without ignored).etagFor name = some etag ↔
      previous.etagFor name = some etag ∧ name ∉ ignored := by
  simp only [etagFor_eq_some_iff, without, filter, List.mem_filter]
  constructor
  · rintro ⟨entry, ⟨member, kept⟩, rfl, rfl⟩
    exact ⟨⟨entry, member, rfl, rfl⟩, by simpa using kept⟩
  · rintro ⟨⟨entry, member, rfl, rfl⟩, kept⟩
    exact ⟨entry, ⟨member, by simpa using kept⟩, rfl, rfl⟩

/-- What is lost on the way from one vector to another is what was ignored on the way. -/
theorem covers_without_trans (first : middle.covers (previous.without ignored) = true)
    (last : current.covers (middle.without others) = true) :
    current.covers (previous.without (ignored ++ others)) = true := by
  rw [covers_iff] at first last ⊢
  intro name etag found
  obtain ⟨found, kept⟩ := etagFor_without_eq_some_iff.mp found
  obtain ⟨early, late⟩ := not_or.mp (List.mem_append.not.mp kept)
  obtain ⟨known, middleFound, below⟩ :=
    first name etag (etagFor_without_eq_some_iff.mpr ⟨found, early⟩)
  obtain ⟨reached, currentFound, above⟩ :=
    last name known (etagFor_without_eq_some_iff.mpr ⟨middleFound, late⟩)
  exact ⟨reached, currentFound, Int64.le_trans below above⟩

theorem covers_without_mono (covers : current.covers (previous.without ignored) = true)
    (more : ignored ⊆ others) : current.covers (previous.without others) = true := by
  rw [covers_iff] at covers ⊢
  intro name etag found
  obtain ⟨found, kept⟩ := etagFor_without_eq_some_iff.mp found
  exact covers name etag (etagFor_without_eq_some_iff.mpr ⟨found, fun inside => kept (more inside)⟩)

end ChangeVector

namespace Partition

/-- The etag up to which a store has followed a source. -/
def etagFrom (store : Partition) (source : String) : Except Fault (Option Int64) := do
  return ((← store.readState).getD .empty).lastEtagFrom.get? source

/-- From one store to another some slices were committed, and some instances were ignored. -/
structure Advances (ignored : List String) (slices : List Slice) (store next : Partition) : Prop where
  etags : ∀ source, ∃ reached, store.etagFrom source = .ok reached ∧
    next.etagFrom source = .ok (Slice.furthest source slices reached)
  vector : ∃ previous current, store.databaseVector = .ok previous ∧
    next.databaseVector = .ok current ∧ current.covers (previous.without ignored) = true

namespace Advances

theorem trans (first : Advances ignored slices store between)
    (last : Advances others later between next) :
    Advances (ignored ++ others) (slices ++ later) store next where
  etags source := by
    obtain ⟨reached, before, left⟩ := first.etags source
    obtain ⟨again, found, after⟩ := last.etags source
    obtain rfl := Except.ok.inj (left.symm.trans found)
    exact ⟨reached, before, by rw [after, Slice.furthest_append]⟩
  vector := by
    obtain ⟨previous, middle, before, left, firstCovers⟩ := first.vector
    obtain ⟨again, current, found, after, lastCovers⟩ := last.vector
    obtain rfl := Except.ok.inj (left.symm.trans found)
    exact ⟨previous, current, before, after,
      ChangeVector.covers_without_trans firstCovers lastCovers⟩

theorem mono (advances : Advances ignored slices store next) (more : ignored ⊆ others) :
    Advances others slices store next where
  etags := advances.etags
  vector := by
    obtain ⟨previous, current, before, after, covers⟩ := advances.vector
    exact ⟨previous, current, before, after, ChangeVector.covers_without_mono covers more⟩

theorem of_sameContents (advances : Advances ignored slices store between)
    (same : between.SameContents next) : Advances ignored slices store next := by
  have state : next.readState = between.readState := same.readState.symm
  have vector : next.databaseVector = between.databaseVector := by
    rw [databaseVector, state, databaseVector]
  have etag (source : String) : next.etagFrom source = between.etagFrom source := by
    rw [etagFrom, state, etagFrom]
  exact ⟨fun source => etag source ▸ advances.etags source, vector ▸ advances.vector⟩

end Advances

theorem Reachable.advances_refl (reachable : store.Reachable) : Advances [] [] store store := by
  obtain ⟨stored, known, read, parsed, -⟩ := reachable.persists
  have state : store.readState = .ok stored := read
  refine ⟨fun source => ?_, known, known, ?_, ?_, ?_⟩
  · refine ⟨(stored.getD .empty).lastEtagFrom.get? source, ?_, ?_⟩
    · rw [etagFrom, state]
      rfl
    · rw [etagFrom, state, Slice.furthest_of_absent (List.forall_mem_nil _)]
      rfl
  · rw [databaseVector, state]
    exact parsed
  · rw [databaseVector, state]
    exact parsed
  · exact ChangeVector.covers_without known []

/-- What is persisted covers what was persisted before, less what the transaction ignores. -/
theorem Reachable.executed_covers {outcome : SliceOutcome} {stored : Option ReplicationState}
    {previous : ChangeVector} {started applied after : Workspace} {text : Option String}
    {record : Bytes} (reachable : store.Reachable)
    (executed : slice.Executed ⟨.ignoring ignored, store.begin⟩ after outcome stored previous started
      applied text record) :
    ∃ current, ChangeVector.parse
        (slice.nextState applied.context (stored.getD .empty) text).changeVector = .ok current ∧
      current.covers (previous.without ignored) = true := by
  obtain ⟨found, known, read, parsed, plain⟩ := reachable.persists
  obtain rfl : stored = found := Except.ok.inj (executed.read.symm.trans read)
  obtain rfl : previous = known := Except.ok.inj (executed.parsed.symm.trans parsed)
  obtain ⟨vector, carries⟩ := executed.carries (Context.canonical_ignoring ignored)
  have ahead := executed.ahead (Context.canonical_ignoring ignored)
    (Context.vectorText_ignoring ignored) (fun _ plain => plain)
    (fun change _ => change.carries_plain _) plain reachable.readable
  obtain ⟨current, accumulated, covers, -⟩ := ahead.current
  -- What is persisted is what the context accumulated.
  obtain rfl : vector = current := by
    have kept := carries.accumulated
    rw [executed.context] at kept
    exact Except.ok.inj (kept.symm.trans accumulated)
  rw [ChangeVector.without_ignoring] at covers
  exact ⟨vector, carries.settled.parsed, covers⟩

/-- What one slice does in a transaction of its own. -/
theorem Reachable.advances_transact (reachable : store.Reachable)
    (done : Scheduler.transact ignored slice.execute store = .ok (outcome, next)) :
    Advances ignored [slice] store next := by
  obtain ⟨workspace, ran, rfl⟩ := Scheduler.transact_eq_ok_iff.mp done
  obtain ⟨stored, previous, started, applied, text, record, executed⟩ :=
    Slice.attempt_execute_iff.mp ran
  have state : store.readState = .ok stored := executed.read
  have left : workspace.transaction.commit.readState = _ :=
    workspace.transaction.sameView_begin_commit.readState.trans executed.readState
  constructor
  · intro source
    have nothing : applied.context.etags = .empty :=
      executed.etags.trans (Context.etags_ignoring ignored)
    refine ⟨(stored.getD .empty).lastEtagFrom.get? source, ?_, ?_⟩
    · rw [etagFrom, state]
      rfl
    · rw [etagFrom, left]
      exact congrArg Except.ok (Slice.furthest_nextState source slice nothing _ text)
  · obtain ⟨current, parsed, covers⟩ := reachable.executed_covers executed
    refine ⟨previous, current, ?_, ?_, covers⟩
    · rw [databaseVector, state]
      exact executed.parsed
    · rw [databaseVector, left]
      exact parsed

theorem Reachable.advances_separately {outcomes : List SliceOutcome} (reachable : store.Reachable)
    (done : (Scheduler.runSeparately ignored slices store).1 = outcomes.map .ok) :
    Advances ignored slices store (Scheduler.runSeparately ignored slices store).2 := by
  induction slices generalizing store outcomes with
  | nil => exact reachable.advances_refl.mono (List.nil_subset _)
  | cons slice rest ih =>
      simp only [Scheduler.runSeparately] at done ⊢
      cases first : Scheduler.transact ignored slice.execute store with
      | error fault =>
          rw [first] at done
          cases outcomes <;> cases done
      | ok result =>
          rw [first] at done
          cases outcomes with
          | nil => cases done
          | cons outcome others =>
              have advances := (reachable.advances_transact first).trans
                (ih (reachable.committed first) (List.cons.inj done).2)
              exact advances.mono (List.append_subset.mpr ⟨List.Subset.refl _, List.Subset.refl _⟩)

theorem Reachable.advances_shared {outcomes : List SliceOutcome} (reachable : store.Reachable)
    (done : Scheduler.transact ignored (Scheduler.runAll (slices.map Slice.execute)) store =
      .ok (outcomes, next)) : Advances ignored slices store next := by
  obtain ⟨after, ran, rfl⟩ := Scheduler.transact_eq_ok_iff.mp done
  obtain ⟨results, same⟩ :=
    Scheduler.runSeparately_of_runAll ran (.inl rfl) reachable.stripped (.refl _)
  exact (reachable.advances_separately results).of_sameContents
    (same.trans after.transaction.sameView_begin_commit.symm).contents

end Partition

/-- Slices that are to share a transaction, and the instances it ignores. -/
structure SharedTransaction where
  ignored : List String
  slices : List Slice
deriving DecidableEq, Repr

/-- The transactions that succeed, one after another, and the store they leave. One that fails leaves
no trace. -/
def Partition.runShared : List SharedTransaction → Partition → List SharedTransaction × Partition
  | [], store => ([], store)
  | shared :: rest, store =>
    match Scheduler.transact shared.ignored (Scheduler.runAll (shared.slices.map Slice.execute))
        store with
    | .ok (_, next) =>
      let (committed, final) := runShared rest next
      (shared :: committed, final)
    | .error _ => runShared rest store

namespace Partition

theorem Reachable.advances_runShared (reachable : store.Reachable)
    (transactions : List SharedTransaction) :
    Advances ((runShared transactions store).1.flatMap (·.ignored))
      ((runShared transactions store).1.flatMap (·.slices)) store
      (runShared transactions store).2 := by
  induction transactions generalizing store with
  | nil => exact reachable.advances_refl
  | cons shared rest ih =>
      simp only [runShared]
      cases done : Scheduler.transact shared.ignored
          (Scheduler.runAll (shared.slices.map Slice.execute)) store with
      | error fault => exact ih reachable
      | ok result =>
          exact (reachable.advances_shared done).trans (ih (reachable.shared done))

theorem Reachable.runShared (reachable : store.Reachable) (transactions : List SharedTransaction) :
    (Partition.runShared transactions store).2.Reachable := by
  induction transactions generalizing store with
  | nil => exact reachable
  | cons shared rest ih =>
      simp only [Partition.runShared]
      cases done : Scheduler.transact shared.ignored
          (Scheduler.runAll (shared.slices.map Slice.execute)) store with
      | error fault => exact ih reachable
      | ok result => exact ih (reachable.shared done)

/-- Replication progress never moves back, whatever transactions succeed or fail. -/
theorem progress_advances (reachable : store.Reachable) (transactions : List SharedTransaction)
    {committed : List SharedTransaction} {final : Partition}
    (run : store.runShared transactions = (committed, final)) :
    (∀ source, ∃ reached, store.etagFrom source = .ok reached ∧
      final.etagFrom source =
        .ok (Slice.furthest source (committed.flatMap (·.slices)) reached)) ∧
    (∀ source, (∀ shared ∈ committed, ∀ slice ∈ shared.slices, slice.source ≠ source) →
      final.etagFrom source = store.etagFrom source) ∧
    ∃ previous current, store.databaseVector = .ok previous ∧ final.databaseVector = .ok current ∧
      current.covers (previous.without (committed.flatMap (·.ignored))) = true := by
  have advances := reachable.advances_runShared transactions
  rw [show runShared transactions store = (committed, final) from run] at advances
  refine ⟨advances.etags, fun source absent => ?_, advances.vector⟩
  obtain ⟨reached, before, after⟩ := advances.etags source
  rw [after, before, Slice.furthest_of_absent]
  intro slice member
  obtain ⟨shared, inside, own⟩ := List.mem_flatMap.mp member
  exact absent shared inside slice own

/-- Two sources, one of them with an etag below 0. -/
def earlyProgress : List SharedTransaction := [
  ⟨["X"], [⟨"north", 7, [.change ⟨⟨"RV:3-A, RV:2-X", 3, .epoch, 0⟩, .document "users/1" "users" [1]⟩]⟩,
    ⟨"south", -5, [.change ⟨⟨"RV:4-B", 4, .epoch, 0⟩, .counter "users/1" "likes" [2]⟩]⟩]⟩]

/-- An etag that was passed, in a transaction that ignores one instance, and an attachment without
content. -/
def lateProgress : List SharedTransaction := [
  ⟨["A"], [⟨"north", 4, [.change ⟨⟨"RV:6-B", 6, .epoch, 0⟩, .counter "users/1" "likes" [3]⟩]⟩]⟩,
  ⟨[], [⟨"south", 9, [.change ⟨⟨"RV:9-B", 9, .epoch, 0⟩,
    .attachment "users/1" "photo" "image/png" "nowhere"⟩]⟩]⟩]

theorem progress_advances_lateProgress :
    let store := ((create .memory).runShared earlyProgress).2
    ∃ committed final, store.runShared lateProgress = (committed, final) ∧
      committed = lateProgress.take 1 ∧ store.etagFrom "north" = .ok (some 7) ∧
      (∀ source, ∃ reached, store.etagFrom source = .ok reached ∧
        final.etagFrom source =
          .ok (Slice.furthest source (committed.flatMap (·.slices)) reached)) ∧
      final.etagFrom "south" = store.etagFrom "south" ∧
      ∃ previous current, store.databaseVector = .ok previous ∧
        final.databaseVector = .ok current ∧ current.covers (previous.without ["A"]) = true := by
  intro store
  have first : (store.runShared lateProgress).1 = lateProgress.take 1 := by decide +kernel
  have reached : store.etagFrom "north" = .ok (some 7) := by decide +kernel
  obtain ⟨committed, final, ran⟩ : ∃ committed final,
      store.runShared lateProgress = (committed, final) := ⟨_, _, rfl⟩
  rw [ran] at first
  obtain ⟨etags, absent, vector⟩ :=
    progress_advances ((Reachable.created .memory).runShared earlyProgress) lateProgress ran
  obtain rfl : committed = lateProgress.take 1 := first
  exact ⟨_, final, ran, rfl, reached, etags, absent "south" (by decide), vector⟩

end Partition

end DocumentReplication
