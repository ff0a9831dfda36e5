import DocumentReplication.Commit.Slice

/-!
The scheduler of a partition: commands that wait at the same time share one write transaction. If any
of them fails, nothing of the transaction is kept and every command runs alone instead, so each one
gets its own result.
-/

namespace DocumentReplication

structure SchedulerSettings where
  /-- How many commands may share a transaction; at least one always may. -/
  maxBatch : Nat
  queueCapacity : Nat
  writeTimeoutMillis : Nat
  ignoredIds : List String
deriving DecidableEq, Repr

structure SchedulerStats where
  executed : Nat
  failed : Nat
  transactions : Nat
  /-- Shared transactions that were given up. -/
  retries : Nat
  maxCommands : Nat
deriving DecidableEq, Repr, Inhabited

namespace SchedulerStats

def initial : SchedulerStats := ⟨0, 0, 0, 0, 0⟩

def noteAlone (succeeded : Bool) (stats : SchedulerStats) : SchedulerStats :=
  if succeeded then
    { stats with executed := stats.executed + 1, transactions := stats.transactions + 1 }
  else { stats with failed := stats.failed + 1 }

def noteShared (count : Nat) (stats : SchedulerStats) : SchedulerStats :=
  { stats with
    executed := stats.executed + count
    transactions := stats.transactions + 1
    maxCommands := max stats.maxCommands count }

def noteRetry (stats : SchedulerStats) : SchedulerStats :=
  { stats with retries := stats.retries + 1 }

end SchedulerStats

structure Scheduler where
  settings : SchedulerSettings
  store : Partition
  stats : SchedulerStats
  stopped : Bool
deriving Repr

namespace Scheduler

variable {α : Type}

def start (settings : SchedulerSettings) (store : Partition) : Scheduler :=
  ⟨settings, store, .initial, false⟩

/-- Runs commands one after another until one fails. -/
def runAll : List (Command α) → Command (List α)
  | [] => pure []
  | command :: rest => do
    let first ← command
    let others ← runAll rest
    return first :: others

/-- Runs a command in a transaction of its own, which is committed unless the command fails.

A scheduler is assumed to be the only writer of its store. So nothing else is ever open, the
transaction begins at once as in `Partition.beginUnless false`, and `writeTimeoutMillis` never runs
out. The storage engine is assumed not to fail when a transaction begins or is committed. -/
def transact (ignored : List String) (command : Command α) (store : Partition) :
    Except Fault (α × Partition) :=
  match command ⟨.ignoring ignored, store.begin⟩ with
  | (.ok result, workspace) => .ok (result, workspace.transaction.commit)
  | (.error fault, _) => .error fault

def runAlone (command : Command α) (scheduler : Scheduler) : Except Fault α × Scheduler :=
  match transact scheduler.settings.ignoredIds command scheduler.store with
  | .ok (result, store) =>
    (.ok result, { scheduler with store := store, stats := scheduler.stats.noteAlone true })
  | .error fault =>
    (.error fault, { scheduler with stats := scheduler.stats.noteAlone false })

def runEach : List (Command α) → Scheduler → List (Except Fault α) × Scheduler
  | [], scheduler => ([], scheduler)
  | command :: rest, scheduler =>
    let (first, scheduler) := runAlone command scheduler
    let (others, scheduler) := runEach rest scheduler
    (first :: others, scheduler)

/-- Runs the commands of one cycle: together if that succeeds, else each alone. -/
def cycle (commands : List (Command α)) (scheduler : Scheduler) :
    List (Except Fault α) × Scheduler :=
  match transact scheduler.settings.ignoredIds (runAll commands) scheduler.store with
  | .ok (results, store) =>
    (results.map .ok,
      { scheduler with store := store, stats := scheduler.stats.noteShared commands.length })
  | .error fault =>
    match commands with
    | [_] => ([.error fault], { scheduler with stats := scheduler.stats.noteAlone false })
    | _ => runEach commands { scheduler with stats := scheduler.stats.noteRetry }

def cut (size : Nat) (positive : 0 < size) (commands : List α) : List (List α) :=
  match commands with
  | [] => []
  | first :: rest =>
    (first :: rest).take size :: cut size positive ((first :: rest).drop size)
termination_by commands.length
decreasing_by
  simp only [List.length_drop, List.length_cons]
  omega

def runCycles : List (List (Command α)) → Scheduler → List (Except Fault α) × Scheduler
  | [], scheduler => ([], scheduler)
  | commands :: rest, scheduler =>
    let (first, scheduler) := cycle commands scheduler
    let (others, scheduler) := runCycles rest scheduler
    (first ++ others, scheduler)

/-- Runs all commands that are waiting, in their order. -/
def submit (commands : List (Command α)) (scheduler : Scheduler) :
    List (Except Fault α) × Scheduler :=
  if scheduler.stopped then
    (commands.map fun _ => .error (.transaction .schedulerStopped), scheduler)
  else
    runCycles (cut (max scheduler.settings.maxBatch 1) (by omega) commands) scheduler

def stop (scheduler : Scheduler) : Scheduler := { scheduler with stopped := true }

end Scheduler

end DocumentReplication
