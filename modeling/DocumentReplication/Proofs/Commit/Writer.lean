import DocumentReplication.Commit.Writer
import DocumentReplication.Proofs.Commit.Execution

/-!
All that a writer can come to with waiting commands: in one transaction, with one of them alone, and
with those of a cycle. With commands that do not change, such as slices, it comes to what the scheduler
comes to.
-/

namespace DocumentReplication

open Work

variable {γ α : Type} {kind : CommandKind γ α} {waiting left : List (Waiting γ α)}

/-- Whether one of some commands fails when they run one after another in a workspace. -/
def CommandKind.someFails (kind : CommandKind γ α) : List γ → Workspace → Bool
  | [], _ => false
  | command :: rest, workspace =>
    match kind.run (command, workspace) with
    | (.ok _, _, after) => kind.someFails rest after
    | (.error _, _, _) => true

namespace Writer

/-- Commands that were all executed, over one store, and are answered with their results. -/
structure Completed (kind : CommandKind γ α) (waiting : List (Waiting γ α))
    (workspace after : Workspace) (left : List (Waiting γ α)) : Prop where
  answers : ∃ results : List α, results.length = waiting.length ∧
    left.map (·.answer (.ok ())) = results.map .ok
  base : after.transaction.base = workspace.transaction.base
  succeeds : kind.someFails (waiting.map (·.command)) workspace = false

theorem executeAll_ok {workspace after : Workspace}
    (done : executeAll kind waiting workspace = (.ok after, left)) :
    Completed kind waiting workspace after left := by
  induction waiting generalizing workspace left with
  | nil =>
      cases done
      exact ⟨⟨[], rfl, rfl⟩, rfl, rfl⟩
  | cons first rest ih =>
      simp only [executeAll, Waiting.execute] at done
      rcases ran : kind.run (first.command, workspace) with ⟨fault | result, command, next⟩
      · simp only [ran] at done
        cases done
      · simp only [ran] at done
        rcases more : executeAll kind rest next with ⟨outcome, others⟩
        simp only [more] at done
        cases done
        obtain ⟨⟨results, length, answers⟩, base, succeeds⟩ := ih more
        refine ⟨⟨result :: results, by simp [length], ?_⟩, base.trans (kind.confined ran), ?_⟩
        · rw [List.map_cons, answers]
          rfl
        · simp only [List.map_cons, CommandKind.someFails, ran, succeeds]

theorem executeAll_error {workspace : Workspace} {fault : Fault}
    (failed : executeAll kind waiting workspace = (.error fault, left)) :
    left.length = waiting.length ∧
      kind.someFails (waiting.map (·.command)) workspace = true := by
  induction waiting generalizing workspace left with
  | nil => cases failed
  | cons first rest ih =>
      simp only [executeAll, Waiting.execute] at failed
      rcases ran : kind.run (first.command, workspace) with ⟨fault | result, command, next⟩
      · simp only [ran] at failed
        cases failed
        simp only [List.length_cons, List.map_cons, CommandKind.someFails, ran, and_self]
      · simp only [ran] at failed
        rcases more : executeAll kind rest next with ⟨outcome, others⟩
        simp only [more] at failed
        cases failed
        obtain ⟨length, fails⟩ := ih more
        refine ⟨by simp [length], ?_⟩
        simp only [List.map_cons, CommandKind.someFails, ran, fails]

/-- Whether one of some commands fails when they share the next transaction. -/
def sharedFails (kind : CommandKind γ α) (commands : List γ) (writer : Writer) : Bool :=
  kind.someFails commands writer.workspace

/-- A transaction of some commands was committed and counted. -/
structure Commits (count : Nat) (before after : Writer) : Prop where
  stats : after.stats = before.stats.noteCommit
  commits : after.store.commits = before.store.commits + 1
  journal : after.journal = before.journal ++ [count]

/-- All that a transaction of waiting commands can come to. -/
inductive Transacted (kind : CommandKind γ α) (waiting : List (Waiting γ α)) (before : Writer) :
    Except Fault Unit × List (Waiting γ α) × Writer → Prop
  | committed {left : List (Waiting γ α)} {after : Writer} {results : List α}
      (length : results.length = waiting.length)
      (answers : left.map (·.answer (.ok ())) = results.map .ok)
      (succeeds : before.sharedFails kind (waiting.map (·.command)) = false)
      (commits : Commits waiting.length before after) :
      Transacted kind waiting before (.ok (), left, after)
  | abandoned {left : List (Waiting γ α)} {fault : Fault} (length : left.length = waiting.length)
      (fails : before.sharedFails kind (waiting.map (·.command)) = true) :
      Transacted kind waiting before (.error fault, left, before)

theorem transacted (kind : CommandKind γ α) (waiting : List (Waiting γ α)) (before : Writer) :
    Transacted kind waiting before (transact kind waiting before) := by
  unfold transact
  split
  · rename_i workspace left done
    obtain ⟨⟨results, length, answers⟩, base, succeeds⟩ := executeAll_ok done
    exact .committed length answers succeeds ⟨rfl, congrArg (·.commits + 1) base, rfl⟩
  · rename_i fault left failed
    obtain ⟨length, fails⟩ := executeAll_error failed
    exact .abandoned length fails

/-- All that a command that runs alone can come to. -/
inductive ServedAlone (before : Writer) : List (Except Fault α) × Writer → Prop
  | granted {result : α} {committed : Writer} (commits : Commits 1 before committed) :
      ServedAlone before ([.ok result], committed.note (·.noteExecuted 1))
  | refused {fault : Fault} : ServedAlone before ([.error fault], before.note (·.noteFailed))

theorem servedAlone (kind : CommandKind γ α) (waiting : Waiting γ α) (before : Writer) :
    ServedAlone before (serveAlone kind waiting before) := by
  unfold serveAlone
  split
  · exact .refused
  · rename_i fresh made
    have tried := transacted kind [fresh] before
    revert tried
    rcases transact kind [fresh] before with ⟨outcome, left, after⟩
    intro tried
    cases tried with
    | @committed _ _ results length answers succeeds commits =>
        obtain ⟨result, rfl⟩ := List.length_eq_one_iff.mp length
        dsimp only
        rw [answers]
        exact .granted commits
    | abandoned length fails =>
        obtain ⟨each, rfl⟩ := List.length_eq_one_iff.mp length
        exact .refused

/-- All that a cycle of commands can come to. -/
inductive Served (kind : CommandKind γ α) (commands : List γ) (before : Writer) :
    List (Except Fault α) × Writer → Prop
  | together {results : List α} {committed : Writer} (length : results.length = commands.length)
      (succeeds : before.sharedFails kind commands = false)
      (commits : Commits commands.length before committed) :
      Served kind commands before (results.map .ok, committed.note fun stats =>
        (stats.noteExecuted commands.length).noteLargest commands.length)
  | refused {fault : Fault} (lone : commands.length = 1)
      (fails : before.sharedFails kind commands = true) :
      Served kind commands before ([.error fault], before.note (·.noteFailed))
  | replayed {left : List (Waiting γ α)} (several : 2 ≤ commands.length)
      (length : left.length = commands.length) (fails : before.sharedFails kind commands = true) :
      Served kind commands before (serveEach kind left (before.note (·.noteRetry)))

theorem served (kind : CommandKind γ α) (commands : List γ) (before : Writer) :
    Served kind commands before (serve kind (commands.map .queued) before) := by
  have same : (commands.map (Waiting.queued (α := α))).map (·.command) = commands := by
    rw [List.map_map]
    exact List.map_id commands
  have tried := transacted kind (commands.map (Waiting.queued (α := α))) before
  unfold serve
  revert tried
  rcases transact kind (commands.map .queued) before with ⟨outcome, left, after⟩
  intro tried
  rw [List.length_map]
  cases tried with
  | committed length answers succeeds commits =>
      rw [List.length_map] at length commits
      rw [same] at succeeds
      dsimp only
      rw [answers]
      exact .together length succeeds commits
  | abandoned length fails =>
      rw [List.length_map] at length
      rw [same] at fails
      dsimp only
      split
      · rename_i lone
        obtain ⟨each, rfl⟩ := List.length_eq_one_iff.mp (length.trans lone)
        exact .refused lone fails
      · rename_i several
        refine .replayed ?_ length fails
        -- Nothing fails among no commands.
        cases commands with
        | nil => cases fails
        | cons first rest =>
            rw [List.length_cons] at several ⊢
            omega

/-- The cycles of a run, each with the writer as it is when the cycle begins. -/
def begun (kind : CommandKind γ α) : List (List γ) → Writer → List (List γ × Writer)
  | [], _ => []
  | commands :: rest, writer =>
    (commands, writer) :: begun kind rest (serve kind (commands.map .queued) writer).2

end Writer

/-- Commands that keep the store under their transaction where they succeed. -/
def Confined (run : γ → Command α) : Prop :=
  ∀ command workspace result after, attempt (run command) workspace = .ok (result, after) →
    after.transaction.base = workspace.transaction.base

/-- Commands that stay as they are when they run, and are made again as they were. -/
def CommandKind.steady (run : γ → Command α) (confined : Confined run) : CommandKind γ α where
  run := fun (command, workspace) =>
    let (outcome, after) := run command workspace
    (outcome, command, after)
  remake := .ok
  confined := by
    intro command left workspace after result done
    refine confined command workspace result after ?_
    rcases ran : run command workspace with ⟨outcome, next⟩
    simp only [ran] at done
    cases done
    simp only [attempt, ran]

theorem Slice.confined_execute : Confined Slice.execute := by
  intro slice workspace outcome after done
  obtain ⟨_, _, _, applied, _, _, executed⟩ := attempt_execute_iff.mp done
  rw [Transaction.base_put executed.put]
  exact executed.changes_keep (fun between => between.base = workspace.transaction.base)
    (fun _ _ _ _ _ applied same => applied.base.trans same) rfl

/-- Slices, as the writer knows them. -/
def Slice.commands : CommandKind Slice SliceOutcome :=
  .steady Slice.execute Slice.confined_execute

section Steady

variable (run : γ → Command α) (confined : Confined run)

theorem Waiting.execute_steady (waiting : Waiting γ α) (workspace : Workspace) :
    waiting.execute (.steady run confined) workspace =
      match attempt (run waiting.command) workspace with
      | .ok (result, after) => (.ok after, ⟨waiting.command, some result⟩)
      | .error fault => (.error fault, waiting) := by
  simp only [Waiting.execute, CommandKind.steady, attempt]
  rcases run waiting.command workspace with ⟨fault | result, after⟩ <;> rfl

namespace Writer

/-- What waiting commands come to in a workspace, beside the same commands that nobody waits for. -/
inductive Alike (waiting : List (Waiting γ α)) :
    Except Fault (List α × Workspace) → Except Fault Workspace × List (Waiting γ α) → Prop
  | done {results : List α} {after : Workspace} {left : List (Waiting γ α)}
      (answers : left.map (·.answer (.ok ())) = results.map .ok) :
      Alike waiting (.ok (results, after)) (.ok after, left)
  | failed {fault : Fault} {left : List (Waiting γ α)}
      (commands : left.map (·.command) = waiting.map (·.command)) :
      Alike waiting (.error fault) (.error fault, left)

theorem executeAll_steady (waiting : List (Waiting γ α)) (workspace : Workspace) :
    Alike waiting
      (attempt (Scheduler.runAll (waiting.map fun each => run each.command)) workspace)
      (executeAll (.steady run confined) waiting workspace) := by
  induction waiting generalizing workspace with
  | nil => exact .done rfl
  | cons first rest ih =>
      simp only [List.map_cons, Scheduler.runAll, attempt_bind, attempt_pure, executeAll,
        Waiting.execute_steady run confined]
      cases attempt (run first.command) workspace with
      | error fault => exact .failed rfl
      | ok ran =>
          obtain ⟨result, next⟩ := ran
          simp only [Except.ok_bind]
          have others := ih next
          revert others
          generalize attempt (Scheduler.runAll _) next = expected
          generalize executeAll _ rest next = served
          intro others
          cases others with
          | done answers =>
              refine .done ?_
              rw [List.map_cons, answers]
              rfl
          | failed commands =>
              refine .failed ?_
              rw [List.map_cons, List.map_cons, commands]

/-- A transaction of waiting commands beside the scheduler's transaction of the same commands. -/
inductive TransactedAlike (waiting : List (Waiting γ α)) (before : Writer) :
    Except Fault (List α × Partition) → Except Fault Unit × List (Waiting γ α) × Writer → Prop
  | committed {results : List α} {store : Partition} {left : List (Waiting γ α)}
      (answers : left.map (·.answer (.ok ())) = results.map .ok) :
      TransactedAlike waiting before (.ok (results, store)) (.ok (), left, { before with
        store, stats := before.stats.noteCommit, journal := before.journal ++ [waiting.length] })
  | abandoned {fault : Fault} {left : List (Waiting γ α)}
      (commands : left.map (·.command) = waiting.map (·.command)) :
      TransactedAlike waiting before (.error fault) (.error fault, left, before)

theorem transact_steady (waiting : List (Waiting γ α)) (writer : Writer) :
    TransactedAlike waiting writer
      (Scheduler.transact writer.settings.ignoredIds
        (Scheduler.runAll (waiting.map fun each => run each.command)) writer.store)
      (transact (.steady run confined) waiting writer) := by
  have alike := executeAll_steady run confined waiting writer.workspace
  rw [Scheduler.transact_eq, transact]
  change TransactedAlike waiting writer (Except.map _ (attempt _ writer.workspace)) _
  revert alike
  generalize attempt (Scheduler.runAll _) writer.workspace = expected
  generalize executeAll _ waiting writer.workspace = executed
  intro alike
  cases alike with
  | done answers => exact .committed answers
  | failed commands => exact .abandoned commands

theorem serveAlone_steady (waiting : Waiting γ α) (writer : Writer) :
    (serveAlone (.steady run confined) waiting writer).1 =
        [(Scheduler.runAlone (run waiting.command) writer.toScheduler).1] ∧
      (serveAlone (.steady run confined) waiting writer).2.toScheduler =
        (Scheduler.runAlone (run waiting.command) writer.toScheduler).2 := by
  have fresh : waiting.remade (.steady run confined) = .ok (.queued waiting.command) := rfl
  have alike := transact_steady run confined [.queued waiting.command] writer
  rw [List.map_singleton, Scheduler.transact_runAll_singleton] at alike
  simp only [serveAlone, fresh, Scheduler.runAlone]
  revert alike
  change TransactedAlike _ _ (Except.map _ (Scheduler.transact _ (run waiting.command) _)) _ → _
  generalize Scheduler.transact _ (run waiting.command) writer.store = expected
  generalize transact _ [_] writer = transacted
  intro alike
  cases expected with
  | ok expected =>
      cases alike with
      | committed answers => exact ⟨answers, rfl⟩
  | error fault =>
      cases alike with
      | abandoned commands =>
          have length := congrArg List.length commands
          simp only [List.length_map] at length
          obtain ⟨each, rfl⟩ := List.length_eq_one_iff.mp length
          exact ⟨rfl, rfl⟩

theorem serveEach_steady (waiting : List (Waiting γ α)) (writer : Writer) :
    (serveEach (.steady run confined) waiting writer).1 =
        (Scheduler.runEach (waiting.map fun each => run each.command) writer.toScheduler).1 ∧
      (serveEach (.steady run confined) waiting writer).2.toScheduler =
        (Scheduler.runEach (waiting.map fun each => run each.command) writer.toScheduler).2 := by
  induction waiting generalizing writer with
  | nil => exact ⟨rfl, rfl⟩
  | cons first rest ih =>
      obtain ⟨answer, left⟩ := serveAlone_steady run confined first writer
      obtain ⟨answers, last⟩ := ih (serveAlone (.steady run confined) first writer).2
      simp only [serveEach, List.map_cons, Scheduler.runEach]
      rw [answer, answers, last, left]
      exact ⟨rfl, rfl⟩

theorem serve_steady (commands : List γ) (writer : Writer) :
    (serve (.steady run confined) (commands.map .queued) writer).1 =
        (Scheduler.cycle (commands.map run) writer.toScheduler).1 ∧
      (serve (.steady run confined) (commands.map .queued) writer).2.toScheduler =
        (Scheduler.cycle (commands.map run) writer.toScheduler).2 := by
  have same : (commands.map (Waiting.queued (α := α))).map (fun each => run each.command) =
      commands.map run := by
    rw [List.map_map]
    rfl
  have alike := transact_steady run confined (commands.map .queued) writer
  rw [same] at alike
  simp only [serve, Scheduler.cycle]
  revert alike
  generalize Scheduler.transact _ (Scheduler.runAll _) writer.store = expected
  generalize transact _ _ writer = transacted
  intro alike
  cases alike with
  | committed answers =>
      rw [List.length_map, List.length_map]
      exact ⟨answers, rfl⟩
  | @abandoned fault left unchanged =>
      rw [List.map_map] at unchanged
      change left.map (·.command) = commands.map id at unchanged
      rw [List.map_id] at unchanged
      obtain rfl := unchanged
      rw [List.length_map, List.length_map]
      match left with
      | [each] => exact ⟨rfl, rfl⟩
      | [] => exact ⟨rfl, rfl⟩
      | first :: second :: rest =>
          have each := serveEach_steady run confined (first :: second :: rest)
            (writer.note (·.noteRetry))
          rw [List.map_map]
          exact each

/-- The scheduler is a writer whose commands do not change. -/
theorem serveCycles_steady (cycles : List (List γ)) (writer : Writer) :
    (serveCycles (.steady run confined) cycles writer).1 =
        (Scheduler.runCycles (cycles.map (·.map run)) writer.toScheduler).1 ∧
      (serveCycles (.steady run confined) cycles writer).2.toScheduler =
        (Scheduler.runCycles (cycles.map (·.map run)) writer.toScheduler).2 := by
  induction cycles generalizing writer with
  | nil => exact ⟨rfl, rfl⟩
  | cons commands rest ih =>
      obtain ⟨first, left⟩ := serve_steady run confined commands writer
      obtain ⟨others, last⟩ := ih (serve (.steady run confined) (commands.map .queued) writer).2
      simp only [serveCycles, List.map_cons, Scheduler.runCycles]
      rw [first, others, last, left]
      exact ⟨rfl, rfl⟩

end Writer

end Steady

end DocumentReplication
