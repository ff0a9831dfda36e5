import DocumentReplication.Proofs.Commit.Merging
import DocumentReplication.Proofs.Commit.Writer

/-!
What the counts of a writer tell. They agree with the answers that submitters got and with the commits
of the store, whichever commands fail, when they share a transaction or when they run alone.

The largest number of commands in a transaction is the exception: it is noted only where a whole cycle
is committed, so it stays zero while there were only commits of commands that were run again.
-/

namespace DocumentReplication

namespace Writer

variable {γ α : Type} {kind : CommandKind γ α} {left : List (Waiting γ α)}
  {before middle after : Writer} {answers others : List (Except Fault α)}

/-- How the counts of a writer move while it gives some answers and gives up some shared transactions. -/
structure Accounts (before after : Writer) (answers : List (Except Fault α))
    (commands givenUp : Nat) : Prop where
  executed : after.stats.executed = before.stats.executed + answers.countP (·.isOk)
  failed : after.stats.failed = before.stats.failed + answers.countP (!·.isOk)
  answered : answers.length = commands
  commits : after.store.commits + before.stats.transactions =
    before.store.commits + after.stats.transactions
  retries : after.stats.retries = before.stats.retries + givenUp

theorem Accounts.refl (writer : Writer) : Accounts writer writer ([] : List (Except Fault α)) 0 0 :=
  ⟨rfl, rfl, rfl, rfl, rfl⟩

theorem Accounts.append {first second given more : Nat}
    (one : Accounts before middle answers first given)
    (two : Accounts middle after others second more) :
    Accounts before after (answers ++ others) (first + second) (given + more) where
  executed := by rw [two.executed, one.executed, List.countP_append, Nat.add_assoc]
  failed := by rw [two.failed, one.failed, List.countP_append, Nat.add_assoc]
  answered := by rw [List.length_append, one.answered, two.answered]
  commits := by
    have first := one.commits
    have second := two.commits
    omega
  retries := by rw [two.retries, one.retries, Nat.add_assoc]

theorem ServedAlone.accounts {served : List (Except Fault α) × Writer}
    (alone : ServedAlone before served) : Accounts before served.2 served.1 1 0 := by
  cases alone with
  | granted commits =>
      refine ⟨?_, ?_, rfl, ?_, ?_⟩
      · exact congrArg (·.executed + 1) commits.stats
      · exact congrArg (·.failed) commits.stats
      · have counted : _ = before.stats.transactions + 1 := congrArg (·.transactions) commits.stats
        have committed := commits.commits
        simp only [note, SchedulerStats.noteExecuted]
        omega
      · exact congrArg (·.retries) commits.stats
  | refused => exact ⟨rfl, rfl, rfl, rfl, rfl⟩

theorem serveEach_accounts (kind : CommandKind γ α) (waiting : List (Waiting γ α)) (before : Writer) :
    Accounts before (serveEach kind waiting before).2 (serveEach kind waiting before).1
      waiting.length 0 := by
  induction waiting generalizing before with
  | nil => exact .refl before
  | cons first rest ih =>
      have alone := (servedAlone kind first before).accounts
      rw [List.length_cons, Nat.add_comm]
      exact alone.append (ih _)

/-- Whether a cycle is given up as a whole. -/
def givesUp (kind : CommandKind γ α) (commands : List γ) (writer : Writer) : Bool :=
  decide (2 ≤ commands.length) && writer.sharedFails kind commands

theorem Served.accounts {commands : List γ} {outcome : List (Except Fault α) × Writer}
    (served : Served kind commands before outcome) :
    Accounts before outcome.2 outcome.1 commands.length
      (if before.givesUp kind commands then 1 else 0) := by
  cases served with
  | @together results committed length succeeds commits =>
      have granted : (results.map (Except.ok (ε := Fault))).countP (·.isOk) = commands.length := by
        rw [List.countP_map, ← length]
        exact List.countP_eq_length.mpr fun _ _ => rfl
      have refused : (results.map (Except.ok (ε := Fault))).countP (!·.isOk) = 0 := by
        rw [List.countP_map]
        exact List.countP_eq_zero.mpr fun _ _ => Bool.false_ne_true
      have counted : _ = before.stats.transactions + 1 := congrArg (·.transactions) commits.stats
      have grown := commits.commits
      refine ⟨?_, ?_, by rw [List.length_map, length], ?_, ?_⟩
      · rw [granted]
        exact congrArg (·.executed + commands.length) commits.stats
      · rw [refused]
        exact congrArg (·.failed) commits.stats
      · simp only [note, SchedulerStats.noteExecuted, SchedulerStats.noteLargest]
        omega
      · rw [givesUp, succeeds, Bool.and_false]
        exact congrArg (·.retries) commits.stats
  | refused lone fails =>
      rw [givesUp, lone]
      exact ⟨rfl, rfl, rfl, rfl, rfl⟩
  | @replayed left several length fails =>
      obtain ⟨executed, failed, answered, commits, retries⟩ :=
        serveEach_accounts kind left (before.note (·.noteRetry))
      rw [givesUp, fails, decide_eq_true several]
      exact ⟨executed, failed, answered.trans length, commits, retries⟩

theorem serveCycles_accounts (kind : CommandKind γ α) (cycles : List (List γ)) (before : Writer) :
    Accounts before (serveCycles kind cycles before).2 (serveCycles kind cycles before).1
      cycles.flatten.length
      ((begun kind cycles before).countP fun (commands, writer) => writer.givesUp kind commands) := by
  induction cycles generalizing before with
  | nil => exact .refl before
  | cons commands rest ih =>
      have first := (served kind commands before).accounts
      rw [List.flatten_cons, List.length_append, begun, List.countP_cons, Nat.add_comm (List.countP _ _)]
      exact first.append (ih _)

/-- The counts of a writer are exact: what was executed and what failed are the commands that were
answered with a result and with a fault, each transaction is a commit of the store, and each retry a
cycle of several commands one of which failed in the transaction they shared. -/
theorem serveCycles_counts (kind : CommandKind γ α) (settings : SchedulerSettings) (store : Partition)
    (cycles : List (List γ)) :
    let before := start settings store
    let (answers, after) := serveCycles kind cycles before
    after.stats.executed = answers.countP (·.isOk) ∧
      after.stats.failed = answers.countP (!·.isOk) ∧
      after.stats.executed + after.stats.failed = cycles.flatten.length ∧
      after.store.commits = store.commits + after.stats.transactions ∧
      after.stats.retries =
        (begun kind cycles before).countP fun (commands, writer) => writer.givesUp kind commands := by
  obtain ⟨executed, failed, answered, commits, retries⟩ :=
    serveCycles_accounts kind cycles (start settings store)
  rw [show (start settings store).stats = .initial from rfl] at executed failed commits retries
  simp only [SchedulerStats.initial, Nat.zero_add, Nat.add_zero] at executed failed commits retries
  refine ⟨executed, failed, ?_, commits, retries⟩
  rw [executed, failed, ← answered]
  simpa only [Bool.not_eq_true, Bool.decide_eq_false] using
    (List.length_eq_countP_add_countP fun each : Except Fault α => each.isOk).symm

/-- The most commands that shared a transaction that was committed. -/
def largest (writer : Writer) : Nat := writer.journal.foldl max 0

/-- Whether the commands of a cycle are committed in one transaction. -/
def commitsWhole (kind : CommandKind γ α) (commands : List γ) (writer : Writer) : Bool :=
  !commands.isEmpty && !writer.sharedFails kind commands

/-- What the noted maximum tells, where `whole` says whether a cycle was ever committed as a whole. -/
structure Measured (whole : Bool) (writer : Writer) : Prop where
  shown : writer.stats.maxCommands = if whole then writer.largest else 0
  exceeded : if whole then 0 < writer.largest else writer.largest ≤ 1
  journal : writer.journal.length = writer.stats.transactions

theorem Commits.largest {count : Nat} (commits : Commits count before after) :
    after.largest = max before.largest count := by
  rw [Writer.largest, commits.journal, List.foldl_append]
  rfl

theorem Commits.journal_length {count : Nat} (commits : Commits count before after)
    (same : before.journal.length = before.stats.transactions) :
    after.journal.length = after.stats.transactions := by
  rw [commits.journal, commits.stats, List.length_append, same]
  rfl

theorem ServedAlone.measured {served : List (Except Fault α) × Writer} {whole : Bool}
    (alone : ServedAlone before served) (measured : Measured whole before) :
    Measured whole served.2 := by
  cases alone with
  | refused => exact ⟨measured.shown, measured.exceeded, measured.journal⟩
  | @granted result committed commits =>
      have same : committed.stats.maxCommands = before.stats.maxCommands :=
        congrArg (·.maxCommands) commits.stats
      have largest := commits.largest
      obtain ⟨shown, exceeded, journal⟩ := measured
      refine ⟨?_, ?_, commits.journal_length journal⟩
      · change committed.stats.maxCommands = if whole then committed.largest else 0
        rw [same, shown, largest]
        cases whole with
        | false => rfl
        | true => exact (Nat.max_eq_left exceeded).symm
      · change if whole then 0 < committed.largest else committed.largest ≤ 1
        rw [largest]
        cases whole with
        | false => exact Nat.max_le.mpr ⟨exceeded, Nat.le_refl 1⟩
        | true => exact Nat.lt_of_lt_of_le exceeded (Nat.le_max_left ..)

theorem serveEach_measured {whole : Bool} (kind : CommandKind γ α) (waiting : List (Waiting γ α))
    (measured : Measured whole before) : Measured whole (serveEach kind waiting before).2 := by
  induction waiting generalizing before with
  | nil => exact measured
  | cons first rest ih => exact ih ((servedAlone kind first before).measured measured)

theorem Served.measured {commands : List γ} {outcome : List (Except Fault α) × Writer} {whole : Bool}
    (served : Served kind commands before outcome) (measured : Measured whole before) :
    Measured (before.commitsWhole kind commands || whole) outcome.2 := by
  cases served with
  | refused lone fails =>
      rw [commitsWhole, fails, Bool.not_true, Bool.and_false, Bool.false_or]
      exact ⟨measured.shown, measured.exceeded, measured.journal⟩
  | @replayed left several length fails =>
      rw [commitsWhole, fails, Bool.not_true, Bool.and_false, Bool.false_or]
      exact serveEach_measured kind left ⟨measured.shown, measured.exceeded, measured.journal⟩
  | @together results committed length succeeds commits =>
      have same : committed.stats.maxCommands = before.stats.maxCommands :=
        congrArg (·.maxCommands) commits.stats
      have largest := commits.largest
      obtain ⟨shown, exceeded, journal⟩ := measured
      rw [commitsWhole, succeeds, Bool.not_false, Bool.and_true]
      refine ⟨?_, ?_, commits.journal_length journal⟩
      · change max committed.stats.maxCommands commands.length = if _ then committed.largest else 0
        rw [same, shown, largest]
        cases commands with
        | nil => cases whole <;> rfl
        | cons first rest =>
            -- Where nothing was noted before, what was committed is no larger than this cycle.
            cases whole with
            | true => rfl
            | false =>
                have few : before.largest ≤ 1 := exceeded
                change max 0 (rest.length + 1) = max before.largest (rest.length + 1)
                omega
      · change if _ then 0 < committed.largest else committed.largest ≤ 1
        rw [largest]
        cases commands with
        | nil => rwa [List.length_nil, Nat.max_zero]
        | cons first rest =>
            change 0 < max before.largest (rest.length + 1)
            omega

theorem serveCycles_measured {whole : Bool} (kind : CommandKind γ α) (cycles : List (List γ))
    (measured : Measured whole before) :
    Measured
      (((begun kind cycles before).any fun (commands, writer) => writer.commitsWhole kind commands) ||
        whole)
      (serveCycles kind cycles before).2 := by
  induction cycles generalizing before whole with
  | nil => exact measured
  | cons commands rest ih =>
      have later := ih ((served kind commands before).measured measured)
      rw [← Bool.or_assoc, Bool.or_comm (List.any _ _)] at later
      exact later

/-- Each transaction that was counted is in the journal. Once a cycle was committed as a whole, the noted
maximum is the largest of them. Until then it is zero, and no more than one command was ever committed
at a time. -/
theorem serveCycles_maxCommands (kind : CommandKind γ α) (settings : SchedulerSettings)
    (store : Partition) (cycles : List (List γ)) :
    let before := start settings store
    let after := (serveCycles kind cycles before).2
    after.journal.length = after.stats.transactions ∧
      if (begun kind cycles before).any fun (commands, writer) => writer.commitsWhole kind commands then
        after.stats.maxCommands = after.largest
      else after.stats.maxCommands = 0 ∧ after.largest ≤ 1 := by
  have initial : Measured false (start settings store) := ⟨rfl, Nat.zero_le 1, rfl⟩
  obtain ⟨shown, exceeded, journal⟩ := serveCycles_measured kind cycles initial
  rw [Bool.or_false] at shown exceeded
  refine ⟨journal, ?_⟩
  split <;> rename_i whole
  · exact shown.trans (if_pos whole)
  · exact ⟨shown.trans (if_neg whole), by rwa [if_neg whole] at exceeded⟩

/-- Commands that were run again after one of them failed are committed one by one, and the maximum
does not tell. -/
theorem maxCommands_ne_largest_of_mixedSlices :
    ¬ ∀ (settings : SchedulerSettings) (store : Partition) (cycles : List (List Slice)),
      let after := (serveCycles Slice.commands cycles (start settings store)).2
      after.stats.maxCommands = after.largest := by
  intro tells
  have shown := tells ⟨8, 8, 1000, []⟩ (.create .memory) [Scheduler.mixedSlices]
  have differs :
      let after := (serveCycles Slice.commands [Scheduler.mixedSlices]
        (start ⟨8, 8, 1000, []⟩ (.create .memory))).2
      after.stats.maxCommands = 0 ∧ after.stats.transactions = 2 ∧ after.largest = 1 := by
    decide +kernel
  obtain ⟨zero, -, one⟩ := differs
  exact absurd ((zero.symm.trans shown).trans one) Nat.zero_ne_one

end Writer

end DocumentReplication
