import DocumentReplication.Digest.ContentHash
import DocumentReplication.Proofs.Commit.Execution

/-!
The history of a store. A store only changes when its scheduler commits slices, so what every slice
keeps holds of every store that slices lead to, however they shared transactions. The slices of a
history are verified: their payloads have the hashes they are named by.
-/

namespace DocumentReplication

open Work

variable {ignored : List String} {slices : List Slice} {outcomes : List SliceOutcome}
  {store next first between last : Partition} {before after : Workspace}

/-- A payload is verified if its hash is the digest of its content; changes carry no content. -/
def Item.Verified : Item → Prop
  | .change _ => True
  | .payload hash content => contentHash content = hash

def Slice.Verified (slice : Slice) : Prop := ∀ item ∈ slice.items, item.Verified

/-- Admitted slices run from one store to another, any number of them in every transaction. -/
inductive Partition.Runs (admitted : Slice → Prop) (ignored : List String) :
    Partition → Partition → Prop
  | refl (store : Partition) : Runs admitted ignored store store
  | step {first between last : Partition} {slices : List Slice} {outcomes : List SliceOutcome} :
      Runs admitted ignored first between → (∀ slice ∈ slices, admitted slice) →
      Scheduler.transact ignored (Scheduler.runAll (slices.map Slice.execute)) between =
        .ok (outcomes, last) → Runs admitted ignored first last

/-- Verified slices lead from one store to another, in one transaction after the other. -/
inductive Partition.Leads (ignored : List String) : Partition → Partition → Prop
  | refl (store : Partition) : Leads ignored store store
  | step {first between last : Partition} {slices : List Slice} {outcomes : List SliceOutcome} :
      Leads ignored first between → (∀ slice ∈ slices, slice.Verified) →
      Scheduler.transact ignored (Scheduler.runAll (slices.map Slice.execute)) between =
        .ok (outcomes, last) → Leads ignored first last

theorem Partition.Leads.runs (leads : Leads ignored first last) :
    Runs Slice.Verified ignored first last := by
  induction leads with
  | refl => exact .refl _
  | step _ verified done ih => exact .step ih verified done

theorem Partition.Runs.mono {admitted wider : Slice → Prop} (runs : Runs admitted ignored first last)
    (wide : ∀ slice, admitted slice → wider slice) : Runs wider ignored first last := by
  induction runs with
  | refl => exact .refl _
  | step _ all done ih => exact .step ih (fun slice member => wide slice (all slice member)) done

theorem Partition.Runs.trans {admitted : Slice → Prop} (one : Runs admitted ignored first between)
    (two : Runs admitted ignored between last) : Runs admitted ignored first last := by
  induction two with
  | refl => exact one
  | step _ all done ih => exact .step ih all done

theorem Partition.Runs.leads (runs : Runs Slice.Verified ignored first last) :
    Leads ignored first last := by
  induction runs with
  | refl => exact .refl _
  | step _ verified done ih => exact .step ih verified done

theorem Partition.Leads.trans (one : Leads ignored first between)
    (two : Leads ignored between last) : Leads ignored first last :=
  (one.runs.trans two.runs).leads

/-- What every slice that is admitted keeps, in whatever context it runs. -/
structure Transaction.Kept (admitted : Slice → Prop) (ignored : List String)
    (holds : Transaction → Prop) : Prop where
  view : ∀ {first last : Transaction}, first.SameView last → holds first → holds last
  execute : ∀ {slice : Slice} {before after : Workspace} {outcome : SliceOutcome}, admitted slice →
    before.context.ignored = (Context.ignoring ignored).ignored →
    attempt slice.execute before = .ok (outcome, after) → holds before.transaction →
    holds after.transaction

theorem Slice.attempt_execute_ignored {slice : Slice} {outcome : SliceOutcome}
    (done : attempt slice.execute before = .ok (outcome, after)) :
    after.context.ignored = before.context.ignored := by
  obtain ⟨stored, previous, started, applied, text, record, executed⟩ := attempt_execute_iff.mp done
  rw [executed.context, ← executed.ignored]
  rfl

/-- What every slice of a shared transaction keeps, workspace by workspace, is left after all. -/
theorem Slice.runAll_invariant (holds : Workspace → Prop)
    (done : attempt (Scheduler.runAll (slices.map Slice.execute)) before = .ok (outcomes, after))
    (each : ∀ slice ∈ slices, ∀ first outcome last,
      attempt slice.execute first = .ok (outcome, last) → holds first → holds last)
    (start : holds before) : holds after := by
  induction slices generalizing before outcomes with
  | nil =>
      cases done
      exact start
  | cons slice rest ih =>
      obtain ⟨outcome, middle, others, one, more, -⟩ := Scheduler.runAll_cons done
      exact ih more (fun later member => each later (List.mem_cons_of_mem _ member))
        (each slice List.mem_cons_self before outcome middle one start)

namespace Transaction.Kept

variable {admitted : Slice → Prop} {holds : Transaction → Prop}

theorem runAll (kept : Kept admitted ignored holds) (all : ∀ slice ∈ slices, admitted slice)
    (same : before.context.ignored = (Context.ignoring ignored).ignored)
    (done : attempt (Scheduler.runAll (slices.map Slice.execute)) before = .ok (outcomes, after))
    (held : holds before.transaction) : holds after.transaction := by
  refine (Slice.runAll_invariant (fun workspace =>
    workspace.context.ignored = (Context.ignoring ignored).ignored ∧ holds workspace.transaction)
    done ?_ ⟨same, held⟩).2
  intro slice member first outcome last one ⟨ignores, holdsFirst⟩
  exact ⟨(Slice.attempt_execute_ignored one).trans ignores,
    kept.execute (all slice member) ignores one holdsFirst⟩

theorem transact {slice : Slice} {outcome : SliceOutcome} (kept : Kept admitted ignored holds)
    (alone : admitted slice)
    (done : Scheduler.transact ignored slice.execute first = .ok (outcome, last))
    (held : holds first.begin) : holds last.begin := by
  obtain ⟨workspace, ran, rfl⟩ := Scheduler.transact_eq_ok_iff.mp done
  exact kept.view workspace.transaction.sameView_begin_commit.symm (kept.execute alone rfl ran held)

theorem transact_runAll (kept : Kept admitted ignored holds) (all : ∀ slice ∈ slices, admitted slice)
    (done : Scheduler.transact ignored (Scheduler.runAll (slices.map Slice.execute)) first =
      .ok (outcomes, last)) (held : holds first.begin) : holds last.begin := by
  obtain ⟨workspace, ran, rfl⟩ := Scheduler.transact_eq_ok_iff.mp done
  exact kept.view workspace.transaction.sameView_begin_commit.symm (kept.runAll all rfl ran held)

theorem runs (kept : Kept admitted ignored holds) (runs : Partition.Runs admitted ignored first last)
    (held : holds first.begin) : holds last.begin := by
  induction runs with
  | refl => exact held
  | step _ all done ih => exact kept.transact_runAll all done ih

theorem leads (kept : Kept Slice.Verified ignored holds) (leads : Partition.Leads ignored first last)
    (held : holds first.begin) : holds last.begin :=
  kept.runs leads.runs held

end Transaction.Kept

namespace Scheduler

variable {scheduler later : Scheduler}

/-- The same scheduler, some admitted slices later. -/
structure Proceeds (admitted : Slice → Prop) (scheduler later : Scheduler) : Prop where
  settings : later.settings = scheduler.settings
  runs : scheduler.store.Runs admitted scheduler.settings.ignoredIds later.store

namespace Proceeds

variable {admitted : Slice → Prop}

theorem refl (admitted : Slice → Prop) (scheduler : Scheduler) :
    scheduler.Proceeds admitted scheduler := ⟨rfl, .refl _⟩

theorem trans {middle : Scheduler} (one : scheduler.Proceeds admitted middle)
    (two : middle.Proceeds admitted later) : scheduler.Proceeds admitted later := by
  refine ⟨two.settings.trans one.settings, one.runs.trans ?_⟩
  rw [← one.settings]
  exact two.runs

end Proceeds

structure Follows (scheduler later : Scheduler) : Prop where
  settings : later.settings = scheduler.settings
  leads : scheduler.store.Leads scheduler.settings.ignoredIds later.store

theorem Follows.of_proceeds (proceeds : scheduler.Proceeds Slice.Verified later) :
    scheduler.Follows later :=
  ⟨proceeds.settings, proceeds.runs.leads⟩

theorem Follows.proceeds (follows : scheduler.Follows later) :
    scheduler.Proceeds Slice.Verified later :=
  ⟨follows.settings, follows.leads.runs⟩

/-- Some time between two moments of a scheduler a slice was committed. -/
structure Commits (slice : Slice) (scheduler later : Scheduler) : Prop where
  settings : later.settings = scheduler.settings
  committed : ∃ before outcome after, scheduler.store.Leads scheduler.settings.ignoredIds before ∧
    transact scheduler.settings.ignoredIds slice.execute before = .ok (outcome, after) ∧
    after.Leads scheduler.settings.ignoredIds later.store

theorem Commits.of_follows {slice : Slice} {middle next : Scheduler}
    (one : scheduler.Follows middle) (commits : middle.Commits slice next)
    (two : next.Follows later) : scheduler.Commits slice later := by
  obtain ⟨settings, before, outcome, after, first, done, last⟩ := commits
  have rest := two.leads
  rw [settings] at rest
  rw [one.settings] at first done last rest
  exact ⟨two.settings.trans (settings.trans one.settings), before, outcome, after,
    one.leads.trans first, done, last.trans rest⟩

section

variable {admitted : Slice → Prop}

theorem runEach_proceeds (all : ∀ slice ∈ slices, admitted slice) (scheduler : Scheduler) :
    scheduler.Proceeds admitted (runEach (slices.map Slice.execute) scheduler).2 := by
  induction slices generalizing scheduler with
  | nil => exact .refl admitted scheduler
  | cons slice rest ih =>
      have others := ih fun later member => all later (List.mem_cons_of_mem _ member)
      have alone : ∀ other ∈ [slice], admitted other := by
        simpa using all slice List.mem_cons_self
      simp only [List.map_cons, runEach, runAlone]
      refine Proceeds.trans ?_ (others _)
      cases done : transact scheduler.settings.ignoredIds slice.execute scheduler.store with
      | error fault => exact ⟨rfl, .refl _⟩
      | ok result =>
          have shared := transact_runAll_singleton scheduler.settings.ignoredIds slice.execute
            scheduler.store
          rw [done] at shared
          exact ⟨rfl, .step (.refl _) alone shared⟩

theorem cycle_proceeds (all : ∀ slice ∈ slices, admitted slice) (scheduler : Scheduler) :
    scheduler.Proceeds admitted (cycle (slices.map Slice.execute) scheduler).2 := by
  unfold cycle
  cases done : transact scheduler.settings.ignoredIds (runAll (slices.map Slice.execute))
      scheduler.store with
  | ok result => exact ⟨rfl, .step (.refl _) all done⟩
  | error fault =>
      let retried := { scheduler with stats := scheduler.stats.noteRetry }
      have noted : scheduler.Proceeds admitted retried := ⟨rfl, .refl _⟩
      have each := noted.trans (runEach_proceeds all retried)
      match slices with
      | [] => exact each
      | [slice] => exact ⟨rfl, .refl _⟩
      | first :: second :: rest => exact each

end

theorem cut_singleton {α : Type} {size : Nat} (positive : 0 < size) (command : α) :
    cut size positive [command] = [[command]] := by
  have whole : [command].take size = [command] := List.take_of_length_le positive
  have nothing : [command].drop size = [] := List.drop_of_length_le positive
  rw [cut, whole]
  simp only [nothing, cut]

theorem submit_singleton {α : Type} (command : Command α) (scheduler : Scheduler) :
    scheduler.submit [command] =
      if scheduler.stopped then ([.error (.transaction .schedulerStopped)], scheduler)
      else cycle [command] scheduler := by
  unfold submit
  split
  · rfl
  · simp only [cut_singleton, runCycles, List.append_nil]

theorem submit_proceeds {admitted : Slice → Prop} {slice : Slice} (alone : admitted slice)
    (scheduler : Scheduler) : scheduler.Proceeds admitted (scheduler.submit [slice.execute]).2 := by
  rw [submit_singleton]
  split
  · exact .refl admitted scheduler
  · have all : ∀ other ∈ [slice], admitted other := by simpa using alone
    exact cycle_proceeds all scheduler

/-- A slice that was submitted by itself and succeeded was committed. -/
theorem submit_commits {slice : Slice} {outcome : SliceOutcome} {scheduler : Scheduler}
    (done : (scheduler.submit [slice.execute]).1.headD (.error (.transaction .schedulerStopped)) =
      .ok outcome) :
    scheduler.Commits slice (scheduler.submit [slice.execute]).2 := by
  rw [submit_singleton] at done ⊢
  split at done
  · contradiction
  · rename_i running
    rw [if_neg running]
    unfold cycle at done ⊢
    rw [transact_runAll_singleton] at done ⊢
    cases alone : transact scheduler.settings.ignoredIds slice.execute scheduler.store with
    | error fault =>
        rw [alone] at done
        contradiction
    | ok result => exact ⟨rfl, scheduler.store, result.1, result.2, .refl _, alone, .refl _⟩

end Scheduler

end DocumentReplication
