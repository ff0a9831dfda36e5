import DocumentReplication.Commit.Scheduler
import DocumentReplication.Proofs.Commit.Agreement
import DocumentReplication.Proofs.Commit.Settled

/-!
Commands that share a transaction come to the same as commands that run alone. A shared context is
ahead of a fresh one only by what the commands before it wrote, and all of that is in the state
already: starting from the state brings a fresh context to the same vector, and the etags the shared
context still has do not move the state.
-/

namespace DocumentReplication

open Work Workspace

variable {ignored : List String} {slice : Slice} {outcome : SliceOutcome}
  {store next first last : Partition} {alone merged after : Workspace}

namespace Scheduler

/-- The results of slices that run one after another, each in a transaction of its own and a fresh
context, and the store they leave. What fails leaves no trace. -/
def runSeparately (ignored : List String) :
    List Slice → Partition → List (Except Fault SliceOutcome) × Partition
  | [], store => ([], store)
  | slice :: rest, store =>
    match transact ignored slice.execute store with
    | .ok (outcome, next) =>
      let (others, final) := runSeparately ignored rest next
      (.ok outcome :: others, final)
    | .error fault =>
      let (others, final) := runSeparately ignored rest store
      (.error fault :: others, final)

theorem runSeparately_append (slices others : List Slice) (store : Partition) :
    runSeparately ignored (slices ++ others) store =
      ((runSeparately ignored slices store).1 ++
          (runSeparately ignored others (runSeparately ignored slices store).2).1,
        (runSeparately ignored others (runSeparately ignored slices store).2).2) := by
  induction slices generalizing store with
  | nil => rfl
  | cons slice rest ih =>
      simp only [List.cons_append, runSeparately]
      split <;> simp [ih]

end Scheduler

/-- Stores that slices lead to from an empty one, whatever each of them ignores, alone or sharing a
transaction. -/
inductive Partition.Reachable : Partition → Prop
  | created (backend : Backend) : Reachable (create backend)
  | committed {ignored : List String} {slice : Slice} {outcome : SliceOutcome}
      {store next : Partition} : Reachable store →
      Scheduler.transact ignored slice.execute store = .ok (outcome, next) → Reachable next
  | shared {ignored : List String} {slices : List Slice} {outcomes : List SliceOutcome}
      {store next : Partition} : Reachable store →
      Scheduler.transact ignored (Scheduler.runAll (slices.map Slice.execute)) store =
        .ok (outcomes, next) → Reachable next

theorem Partition.Reachable.stripped (reachable : store.Reachable) : store.begin.Stripped := by
  induction reachable with
  | created backend => exact stripped_create backend
  | committed _ done ih => exact stripped_transact ih done
  | shared _ done ih => exact Transaction.kept_stripped.transact_runAll (fun _ _ => trivial) done ih

namespace Scheduler

theorem agree_transact (ignored : List String) (slice : Slice) (stripped : first.begin.Stripped)
    (same : first.SameContents last) :
    Except.Agree (fun result twin => result.1 = twin.1 ∧ result.2.SameContents twin.2)
      (transact ignored slice.execute first) (transact ignored slice.execute last) := by
  rw [transact_eq, transact_eq]
  have agrees : Agrees Eq (attempt slice.execute ⟨.ignoring ignored, first.begin⟩)
      (attempt slice.execute ⟨.ignoring ignored, last.begin⟩) :=
    slice.agrees_execute stripped ⟨rfl, same.begin⟩
  exact agrees.map fun _ _ ⟨result, alike⟩ => ⟨result, alike.view.commit⟩

theorem stripped_runSeparately (ignored : List String) (slices : List Slice)
    (stripped : store.begin.Stripped) :
    (runSeparately ignored slices store).2.begin.Stripped := by
  induction slices generalizing store with
  | nil => exact stripped
  | cons slice rest ih =>
      simp only [runSeparately]
      split
      · rename_i done
        exact ih (Partition.stripped_transact stripped done)
      · exact ih stripped

theorem runSeparately_congr (ignored : List String) (slices : List Slice)
    (stripped : first.begin.Stripped) (same : first.SameContents last) :
    (runSeparately ignored slices first).1 = (runSeparately ignored slices last).1 ∧
      (runSeparately ignored slices first).2.SameContents
        (runSeparately ignored slices last).2 := by
  induction slices generalizing first last with
  | nil => exact ⟨rfl, same⟩
  | cons slice rest ih =>
      have agree := agree_transact ignored slice stripped same
      simp only [runSeparately]
      cases done : transact ignored slice.execute first with
      | error fault =>
          rw [done] at agree
          cases twin : transact ignored slice.execute last with
          | ok result => rw [twin] at agree; cases agree
          | error other =>
              rw [twin] at agree
              cases agree
              obtain ⟨results, contents⟩ := ih stripped same
              exact ⟨by simp [results], contents⟩
      | ok result =>
          rw [done] at agree
          cases twin : transact ignored slice.execute last with
          | error fault => rw [twin] at agree; cases agree
          | ok other =>
              rw [twin] at agree
              cases agree with
              | ok relation =>
                  obtain ⟨outcome, contents⟩ := relation
                  obtain ⟨results, finals⟩ := ih (Partition.stripped_transact stripped done) contents
                  exact ⟨by simp [results, outcome], finals⟩

end Scheduler

/-- What a fresh context and a shared one have in common while a slice runs: they know the same
vector, which has not lost anything the state knew, and would leave the state with the same text. -/
structure Context.Mirrors (floor : ChangeVector) (text : String) (alone merged : Context) : Prop where
  ignored : alone.ignored = merged.ignored
  current : ∃ current, alone.accumulated = .ok current ∧ merged.accumulated = .ok current ∧
    current.Storable alone.ignored ∧ current.covers floor = true
  text : alone.vectorText.getD text = merged.vectorText.getD text

namespace Context

variable {floor : ChangeVector} {text : String}

theorem tolerant_mirrors : Tolerant (Mirrors floor text) where
  ignored mirrors := mirrors.ignored
  skip mirrors := ⟨mirrors.ignored, mirrors.current, mirrors.text⟩
  scratch _ mirrors := ⟨mirrors.ignored, mirrors.current, mirrors.text⟩

theorem merges_mirrors : Merges (Mirrors floor text) := by
  intro alone merged vector mirrors legible storable
  obtain ⟨current, aloneKnows, mergedKnows, currentStorable, covers⟩ := mirrors.current
  have both := currentStorable.merge storable
  have aloneEnters : alone.enter current vector = current.merge vector := by
    rw [enter, both.withoutTransactional, both.without]
  have mergedEnters : merged.enter current vector = current.merge vector := by
    rw [enter, ← mirrors.ignored, both.withoutTransactional, both.without]
  have parsed : ChangeVector.parse (current.merge vector).text = .ok (current.merge vector) :=
    ChangeVector.parse_text ((legible_accumulated aloneKnows).merge legible)
  rw [attempt_mergeVector legible, attempt_mergeVector legible, aloneKnows, mergedKnows]
  simp only [Except.map_ok, aloneEnters, mergedEnters]
  exact .ok ⟨trivial, mirrors.ignored, ⟨_, parsed, parsed, both,
    ChangeVector.covers_trans (ChangeVector.covers_merge_left current vector) covers⟩, rfl⟩

end Context

namespace Slice

/-- Starting from the state brings a context that knows nothing to the vector of one that carries the
state. -/
theorem startFrom_mirrors {state : ReplicationState} {vector : ChangeVector}
    (carries : merged.context.Carries state vector)
    (ignored : alone.context.ignored = merged.context.ignored)
    (vectorText : alone.context.vectorText = none) :
    ∃ begun shared,
      attempt (startFrom vector) alone = .ok ((), { alone with context := begun }) ∧
      attempt (startFrom vector) merged = .ok ((), { merged with context := shared }) ∧
      begun.etags = alone.context.etags ∧ shared.etags = merged.context.etags ∧
      Context.Mirrors vector state.changeVector begun shared := by
  have settled := carries.settled
  rw [← ignored] at settled
  have nothing : alone.context.accumulated = .ok .empty := by
    rw [Context.accumulated, vectorText]
  obtain ⟨begun, start, begunIgnored, begunEtags, begunText⟩ :=
    startFrom_settled settled nothing (.inl rfl)
  obtain ⟨shared, sharedStart, sharedIgnored, sharedEtags, sharedText⟩ :=
    startFrom_settled carries.settled carries.accumulated (.inr rfl)
  refine ⟨begun, shared, start, sharedStart, begunEtags, sharedEtags, ?_⟩
  have same : begun.ignored = shared.ignored := by
    rw [begunIgnored, sharedIgnored, ignored]
  have storable := settled.storable
  rw [← begunIgnored] at storable
  have covers := ChangeVector.covers_refl vector
  -- Over a state that knows nothing, neither context changes; else both take the text of the state.
  rcases begunText with ⟨empty, rfl⟩ | ⟨known, begunKept⟩
  · obtain ⟨-, rfl⟩ := sharedText.resolve_right fun other => other.1 empty
    refine ⟨same, ⟨vector, by rw [nothing, empty], carries.accumulated, storable, covers⟩, ?_⟩
    rw [vectorText]
    rcases carries.text with ⟨absent, -⟩ | ⟨kept, text⟩
    · rw [absent]
    · rw [kept, text]
      rfl
  · obtain ⟨-, sharedKept⟩ := sharedText.resolve_left fun other => known other.1
    refine ⟨same, ⟨vector, ?_, ?_, storable, covers⟩, by rw [begunKept, sharedKept]⟩
    · rw [Context.accumulated, begunKept]
      exact settled.parsed
    · rw [Context.accumulated, sharedKept]
      exact settled.parsed

theorem nextVector_mirrors {floor : ChangeVector} {text : String} {fresh shared : Context}
    (mirrors : Context.Mirrors floor text fresh shared) (source : String) (etag : Int64) :
    nextVector (fresh.recordEtag source etag) floor = .ok fresh.vectorText := by
  cases kept : fresh.vectorText with
  | none => exact nextVector_eq_none_iff.mpr kept
  | some known =>
      obtain ⟨current, found, -, -, covers⟩ := mirrors.current
      rw [Context.accumulated, kept] at found
      exact nextVector_of_covers kept found covers

/-- A slice that succeeds in a shared context over some state succeeds alone, and to the same end. -/
theorem execute_alone {state : ReplicationState} {vector : ChangeVector}
    (done : attempt slice.execute merged = .ok (outcome, after))
    (read : merged.transaction.readState = .ok (some state))
    (carries : merged.context.Carries state vector)
    (ignored : alone.context.ignored = merged.context.ignored)
    (vectorText : alone.context.vectorText = none) (etags : alone.context.etags = .empty)
    (view : alone.transaction.SameView merged.transaction)
    (stripped : alone.transaction.Stripped) :
    ∃ left, attempt slice.execute alone = .ok (outcome, left) ∧
      left.transaction.SameView after.transaction := by
  obtain ⟨stored, previous, started, applied, text, record, executed⟩ := attempt_execute_iff.mp done
  obtain rfl : some state = stored := Except.ok.inj (read.symm.trans executed.read)
  obtain rfl : vector = previous :=
    Except.ok.inj (carries.settled.parsed.symm.trans executed.parsed)
  obtain ⟨begun, shared, start, sharedStart, begunEtags, sharedEtags, mirrors⟩ :=
    startFrom_mirrors carries ignored vectorText
  obtain rfl : started = { merged with context := shared } := by
    have same := executed.start.symm.trans sharedStart
    cases same
    rfl
  have begunAlike : Alike (Context.Mirrors vector state.changeVector) { alone with context := begun }
      { merged with context := shared } := ⟨mirrors, view⟩
  have agrees := agrees_applyChanges slice.payloads Context.tolerant_mirrors Context.merges_mirrors
    slice.changes ⟨0, 0⟩ begunAlike stripped
  obtain ⟨⟨counted, left⟩, apply, same, alike⟩ := agrees.exists_of_ok executed.apply
  cases same
  have leftEtags : Behind left.context.etags state.lastEtagFrom := by
    rw [applyChanges_etags apply, begunEtags, etags]
    exact behind_empty _
  have appliedEtags : Behind applied.context.etags state.lastEtagFrom := by
    rw [applyChanges_etags executed.apply, sharedEtags]
    exact carries.etags
  have persisted := nextVector_mirrors alike.context slice.source slice.lastEtag
  have appliedText : applied.context.vectorText = text := nextVector_eq_ok executed.persisted
  have sameState : slice.nextState left.context state left.context.vectorText =
      slice.nextState applied.context state text := by
    rw [nextState, nextState, advance_recordEtag leftEtags, advance_recordEtag appliedEtags,
      alike.context.text, appliedText]
  obtain ⟨final, put, finalView⟩ : ∃ final,
      left.transaction.put .state Partition.stateKey record = .ok final ∧
        final.SameView after.transaction :=
    (alike.view.put .state Partition.stateKey record).exists_of_ok executed.put
  have encoded := executed.encoded
  rw [Option.getD_some, ← sameState] at encoded
  exact ⟨⟨_, final⟩, attempt_execute_iff.mpr ⟨some state, vector, _, left, _, record,
    ⟨(view.readState).trans read, carries.settled.parsed, start, apply, persisted, encoded, put, rfl⟩⟩,
    finalView⟩

end Slice

/-- Where a command that shares a transaction begins: in a fresh context, or in one that carries the
state of the commands before it. -/
def Workspace.Between (ignored : List String) (workspace : Workspace) : Prop :=
  workspace.context = .ignoring ignored ∨
    workspace.context.ignored = (Context.ignoring ignored).ignored ∧
      ∃ state vector, workspace.transaction.readState = .ok (some state) ∧
        workspace.context.Carries state vector

namespace Slice

/-- A slice that succeeds between other commands succeeds alone, to the same end, and leaves the
place for the next. -/
theorem execute_between (done : attempt slice.execute merged = .ok (outcome, after))
    (between : merged.Between ignored) (stripped : store.begin.Stripped)
    (view : store.begin.SameView merged.transaction) :
    ∃ next, Scheduler.transact ignored slice.execute store = .ok (outcome, next) ∧
      next.begin.SameView after.transaction ∧ after.Between ignored := by
  have canonical : merged.context.Canonical := by
    rcases between with fresh | ⟨-, state, vector, -, carries⟩
    · rw [fresh]
      exact Context.canonical_ignoring ignored
    · exact carries.canonical
  have ids : merged.context.ignored = (Context.ignoring ignored).ignored := by
    rcases between with fresh | ⟨same, -⟩
    · rw [fresh]
    · exact same
  obtain ⟨left, done', leftView⟩ : ∃ left,
      attempt slice.execute ⟨.ignoring ignored, store.begin⟩ = .ok (outcome, left) ∧
        left.transaction.SameView after.transaction := by
    -- Two fresh contexts are equal; a shared one only mirrors a fresh one.
    rcases between with fresh | ⟨-, state, vector, read, carries⟩
    · have agrees : Agrees Eq (attempt slice.execute ⟨.ignoring ignored, store.begin⟩)
          (attempt slice.execute merged) := slice.agrees_execute stripped ⟨fresh.symm, view⟩
      obtain ⟨⟨result, left⟩, leftDone, same, alike⟩ := agrees.exists_of_ok done
      cases same
      exact ⟨left, leftDone, alike.view⟩
    · exact execute_alone done read carries ids.symm (Context.vectorText_ignoring ignored)
        (Context.etags_ignoring ignored) view stripped
  refine ⟨left.transaction.commit, Scheduler.transact_eq_ok_iff.mpr ⟨left, done', rfl⟩, ?_, .inr ?_⟩
  · exact (left.transaction.sameView_begin_commit).trans leftView
  · obtain ⟨stored, previous, started, applied, text, record, executed⟩ :=
      attempt_execute_iff.mp done
    obtain ⟨vector, carries⟩ := executed.carries canonical
    refine ⟨?_, _, vector, executed.readState, carries⟩
    rw [executed.context, ← ids, ← executed.ignored]
    rfl

end Slice

namespace Scheduler

/-- Slices that succeed together succeed one by one, with the same results and to the same end. -/
theorem runSeparately_of_runAll {slices : List Slice} {outcomes : List SliceOutcome}
    (done : attempt (runAll (slices.map Slice.execute)) merged = .ok (outcomes, after))
    (between : merged.Between ignored) (stripped : store.begin.Stripped)
    (view : store.begin.SameView merged.transaction) :
    (runSeparately ignored slices store).1 = outcomes.map .ok ∧
      (runSeparately ignored slices store).2.begin.SameView after.transaction := by
  -- On the slices; between them the context carries the state that both stores have.
  induction slices generalizing merged store outcomes with
  | nil =>
      cases done
      exact ⟨rfl, view⟩
  | cons slice rest ih =>
      obtain ⟨first, left, others, one, more, rfl⟩ := runAll_cons done
      obtain ⟨next, committed, nextView, later⟩ := Slice.execute_between one between stripped view
      obtain ⟨results, final⟩ :=
        ih more later (Partition.stripped_transact stripped committed) nextView
      simp only [runSeparately, committed, results, List.map_cons]
      exact ⟨trivial, final⟩

theorem runEach_eq (slices : List Slice) (scheduler : Scheduler) :
    (runEach (slices.map Slice.execute) scheduler).1 =
        (runSeparately scheduler.settings.ignoredIds slices scheduler.store).1 ∧
      (runEach (slices.map Slice.execute) scheduler).2.store =
        (runSeparately scheduler.settings.ignoredIds slices scheduler.store).2 ∧
      (runEach (slices.map Slice.execute) scheduler).2.settings = scheduler.settings := by
  induction slices generalizing scheduler with
  | nil => exact ⟨rfl, rfl, rfl⟩
  | cons slice rest ih =>
      simp only [List.map_cons, runEach, runAlone, runSeparately]
      cases transact scheduler.settings.ignoredIds slice.execute scheduler.store with
      | ok result =>
          obtain ⟨results, store, settings⟩ := ih { scheduler with
            store := result.2, stats := scheduler.stats.noteAlone true }
          exact ⟨by simp [results], store, settings⟩
      | error fault =>
          obtain ⟨results, store, settings⟩ := ih { scheduler with
            stats := scheduler.stats.noteAlone false }
          exact ⟨by simp [results], store, settings⟩

/-- A cycle gives each slice the result it would have had alone, and leaves the same contents. -/
theorem cycle_transparent (slices : List Slice) (scheduler : Scheduler)
    (stripped : scheduler.store.begin.Stripped) :
    (cycle (slices.map Slice.execute) scheduler).1 =
        (runSeparately scheduler.settings.ignoredIds slices scheduler.store).1 ∧
      (cycle (slices.map Slice.execute) scheduler).2.store.SameContents
        (runSeparately scheduler.settings.ignoredIds slices scheduler.store).2 ∧
      (cycle (slices.map Slice.execute) scheduler).2.settings = scheduler.settings := by
  unfold cycle
  cases together : transact scheduler.settings.ignoredIds (runAll (slices.map Slice.execute))
      scheduler.store with
  | ok result =>
      obtain ⟨outcomes, store⟩ := result
      obtain ⟨after, done, rfl⟩ := transact_eq_ok_iff.mp together
      obtain ⟨results, view⟩ := runSeparately_of_runAll done (.inl rfl) stripped (.refl _)
      exact ⟨results.symm, (view.trans after.transaction.sameView_begin_commit.symm).symm.contents, rfl⟩
  | error fault =>
      have each (scheduler : Scheduler) :
          (runEach (slices.map Slice.execute) scheduler).2.store.SameContents
            (runSeparately scheduler.settings.ignoredIds slices scheduler.store).2 := by
        rw [(runEach_eq slices scheduler).2.1]
        exact .refl _
      -- A cycle of one slice is not tried twice: its fault is the one it would meet alone.
      match slices with
      | [] => exact ⟨(runEach_eq [] _).1, each _, (runEach_eq [] _).2.2⟩
      | [slice] =>
          have failed : transact scheduler.settings.ignoredIds slice.execute scheduler.store =
              .error fault := by
            rw [List.map_singleton, transact_runAll_singleton] at together
            exact Except.map_eq_error_iff.mp together
          simp only [runSeparately, failed, List.map_cons, List.map_nil]
          exact ⟨trivial, .refl _, trivial⟩
      | first :: second :: rest =>
          exact ⟨(runEach_eq _ _).1, each _, (runEach_eq _ _).2.2⟩

/-- Merging commands is transparent. However waiting slices are cut into cycles, every slice gets the
result it would have had alone, in a transaction of its own and a fresh context, and the store is left
with the same contents. -/
theorem runCycles_transparent {scheduler : Scheduler} (reachable : scheduler.store.Reachable)
    (cycles : List (List Slice)) :
    (runCycles (cycles.map (·.map Slice.execute)) scheduler).1 =
        (runSeparately scheduler.settings.ignoredIds cycles.flatten scheduler.store).1 ∧
      (runCycles (cycles.map (·.map Slice.execute)) scheduler).2.store.SameContents
        (runSeparately scheduler.settings.ignoredIds cycles.flatten scheduler.store).2 := by
  have stripped := reachable.stripped
  clear reachable
  induction cycles generalizing scheduler with
  | nil => exact ⟨rfl, .refl _⟩
  | cons slices rest ih =>
      obtain ⟨results, contents, settings⟩ := cycle_transparent slices scheduler stripped
      have separate := stripped_runSeparately scheduler.settings.ignoredIds slices stripped
      have shared := separate.sameView contents.symm.begin
      obtain ⟨others, final⟩ := ih shared
      rw [settings] at others final
      obtain ⟨sameOthers, sameFinal⟩ :=
        runSeparately_congr scheduler.settings.ignoredIds rest.flatten shared contents
      simp only [List.map_cons, runCycles, List.flatten_cons, runSeparately_append]
      exact ⟨by rw [results, others, sameOthers], final.trans sameFinal⟩

/-- A document, an attachment whose content nobody sent, and a newer document. -/
def mixedSlices : List Slice := [
  ⟨"north", 3, [.change ⟨⟨"RV:3-A, RV:1-X", 3, .epoch, 0⟩, .document "users/1" "users" [1]⟩]⟩,
  ⟨"south", 4, [.change ⟨⟨"RV:1-B", 4, .epoch, 0⟩,
    .attachment "users/1" "photo" "image/png" "absent"⟩]⟩,
  ⟨"north", 2, [.change ⟨⟨"RV:4-A", 5, .epoch, 0⟩, .document "users/1" "users" [2]⟩]⟩]

theorem runCycles_transparent_mixedSlices :
    let scheduler := start ⟨8, 8, 1000, ["X"]⟩ (.create .memory)
    let cycles := [mixedSlices, mixedSlices.take 1]
    scheduler.store.Reachable ∧
      (runCycles (cycles.map (·.map Slice.execute)) scheduler).1.map (·.isOk) =
        [true, false, true, true] ∧
      (runCycles (cycles.map (·.map Slice.execute)) scheduler).1 =
        (runSeparately scheduler.settings.ignoredIds cycles.flatten scheduler.store).1 ∧
      (runCycles (cycles.map (·.map Slice.execute)) scheduler).2.store.SameContents
        (runSeparately scheduler.settings.ignoredIds cycles.flatten scheduler.store).2 :=
  ⟨.created .memory, by decide +kernel, runCycles_transparent (.created .memory) _⟩

end Scheduler

end DocumentReplication
