import DocumentReplication.Commit.Scheduler

/-!
The writer of a partition at work on commands of any kind. A command may change while it runs, and is
made again from its description before it runs a second time; the place for its result waits with it.
What the writer does is counted where it is done: a transaction when it is committed, a command when it
is answered.

`Scheduler.cycle` tells what becomes of commands that do not change and are made again as they were.
-/

namespace DocumentReplication

/-- What the writer has to know of commands: what one does in a transaction, which may change the
command as well, and how one is made again. -/
structure CommandKind (γ α : Type) where
  run : Work (γ × Workspace) α
  remake : γ → Except Fault γ
  /-- A command reads and writes through its transaction and cannot bring another store under it. -/
  confined {command left : γ} {workspace after : Workspace} {result : α} :
    run (command, workspace) = (.ok result, left, after) →
      after.transaction.base = workspace.transaction.base

/-- A command that waits for its answer. -/
structure Waiting (γ α : Type) where
  command : γ
  result : Option α

namespace Waiting

variable {γ α : Type}

def queued (command : γ) : Waiting γ α := ⟨command, none⟩

def execute (kind : CommandKind γ α) (waiting : Waiting γ α) (workspace : Workspace) :
    Except Fault Workspace × Waiting γ α :=
  match kind.run (waiting.command, workspace) with
  | (.ok result, command, workspace) => (.ok workspace, ⟨command, some result⟩)
  | (.error fault, command, _) => (.error fault, { waiting with command := command })

def remade (kind : CommandKind γ α) (waiting : Waiting γ α) : Except Fault (Waiting γ α) :=
  (kind.remake waiting.command).map queued

/-- What the submitter is told after the transaction of its command. -/
def answer (outcome : Except Fault Unit) (waiting : Waiting γ α) : Except Fault α :=
  match outcome, waiting.result with
  | .error fault, _ => .error fault
  | .ok (), some result => .ok result
  | .ok (), none => .error (.internal (.described "Command completed without producing output"))

end Waiting

namespace SchedulerStats

def noteCommit (stats : SchedulerStats) : SchedulerStats :=
  { stats with transactions := stats.transactions + 1 }

def noteExecuted (count : Nat) (stats : SchedulerStats) : SchedulerStats :=
  { stats with executed := stats.executed + count }

def noteLargest (count : Nat) (stats : SchedulerStats) : SchedulerStats :=
  { stats with maxCommands := max stats.maxCommands count }

def noteFailed (stats : SchedulerStats) : SchedulerStats :=
  { stats with failed := stats.failed + 1 }

end SchedulerStats

structure Writer extends Scheduler where
  /-- How many commands shared each transaction that was committed. A history that nothing reads. -/
  journal : List Nat

namespace Writer

variable {γ α : Type}

def start (settings : SchedulerSettings) (store : Partition) : Writer :=
  ⟨.start settings store, []⟩

def note (change : SchedulerStats → SchedulerStats) (writer : Writer) : Writer :=
  { writer with stats := change writer.stats }

/-- Where a transaction begins: over the store, in a fresh context. -/
def workspace (writer : Writer) : Workspace :=
  ⟨.ignoring writer.settings.ignoredIds, writer.store.begin⟩

def executeAll (kind : CommandKind γ α) :
    List (Waiting γ α) → Workspace → Except Fault Workspace × List (Waiting γ α)
  | [], workspace => (.ok workspace, [])
  | waiting :: rest, workspace =>
    match waiting.execute kind workspace with
    | (.ok workspace, waiting) =>
      let (outcome, others) := executeAll kind rest workspace
      (outcome, waiting :: others)
    | (.error fault, waiting) => (.error fault, waiting :: rest)

/-- Runs commands in one transaction, which is committed unless one of them fails. As in
`Scheduler.transact`, the writer is assumed to be the only one of its store, so the transaction begins
at once, and the storage engine to begin and commit it without a failure. -/
def transact (kind : CommandKind γ α) (waiting : List (Waiting γ α)) (writer : Writer) :
    Except Fault Unit × List (Waiting γ α) × Writer :=
  match executeAll kind waiting writer.workspace with
  | (.ok workspace, left) =>
    (.ok (), left, { writer with
      store := workspace.transaction.commit
      stats := writer.stats.noteCommit
      journal := writer.journal ++ [waiting.length] })
  | (.error fault, left) => (.error fault, left, writer)

/-- Makes a command again and runs it alone. -/
def serveAlone (kind : CommandKind γ α) (waiting : Waiting γ α) (writer : Writer) :
    List (Except Fault α) × Writer :=
  match waiting.remade kind with
  | .error fault => ([waiting.answer (.error fault)], writer.note (·.noteFailed))
  | .ok fresh =>
    let (outcome, left, writer) := transact kind [fresh] writer
    (left.map (·.answer outcome),
      writer.note (if outcome.isOk then (·.noteExecuted 1) else (·.noteFailed)))

def serveEach (kind : CommandKind γ α) :
    List (Waiting γ α) → Writer → List (Except Fault α) × Writer
  | [], writer => ([], writer)
  | waiting :: rest, writer =>
    let (first, writer) := serveAlone kind waiting writer
    let (others, writer) := serveEach kind rest writer
    (first ++ others, writer)

/-- Serves the commands of one cycle: together, or each alone where one of several fails. -/
def serve (kind : CommandKind γ α) (waiting : List (Waiting γ α)) (writer : Writer) :
    List (Except Fault α) × Writer :=
  match transact kind waiting writer with
  | (.ok (), left, writer) =>
    (left.map (·.answer (.ok ())),
      writer.note fun stats => (stats.noteExecuted waiting.length).noteLargest waiting.length)
  | (.error fault, left, writer) =>
    if waiting.length = 1 then
      (left.map (·.answer (.error fault)), writer.note (·.noteFailed))
    else serveEach kind left (writer.note (·.noteRetry))

def serveCycles (kind : CommandKind γ α) :
    List (List γ) → Writer → List (Except Fault α) × Writer
  | [], writer => ([], writer)
  | commands :: rest, writer =>
    let (first, writer) := serve kind (commands.map .queued) writer
    let (others, writer) := serveCycles kind rest writer
    (first ++ others, writer)

end Writer

end DocumentReplication
