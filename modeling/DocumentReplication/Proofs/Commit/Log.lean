import DocumentReplication.Proofs.Commit.Knowledge

/-!
The log of a run. A slice that is executed only counts what became of its changes; the same execution
can also tell it change by change, with the transaction each change met and the one it left. From one
entry of a log to the next nothing is touched but the replication state.
-/

namespace DocumentReplication

open Work Workspace

variable {ignored : List String} {payloads : Dictionary String Bytes} {slices : List Slice}
  {first between last : Transaction} {before after : Workspace}

structure LogEntry where
  change : Change
  /-- The vector the change was written with, unless it was skipped. -/
  written : Option ChangeVector
  before : Transaction
  after : Transaction

namespace SliceOutcome

/-- A change that was written counts as applied, any other one as skipped. -/
def note (outcome : SliceOutcome) (entry : LogEntry) : SliceOutcome :=
  match entry.written with
  | some _ => { outcome with applied := outcome.applied + 1 }
  | none => { outcome with skipped := outcome.skipped + 1 }

def ofLog (log : List LogEntry) : SliceOutcome := log.foldl note ⟨0, 0⟩

end SliceOutcome

namespace Slice

variable {α β : Type}

def logChanges (payloads : Dictionary String Bytes) : List Change → Command (List LogEntry)
  | [] => pure []
  | change :: rest => do
    let before ← get
    let written ← change.apply payloads
    let after ← get
    if let some vector := written then
      onContext (Context.mergeVector vector)
    let others ← logChanges payloads rest
    return ⟨change, written, before.transaction, after.transaction⟩ :: others

/-- An execution of a slice around some work on its changes. -/
def around (slice : Slice) (work : Command α) : Command α := do
  let stored ← ofExcept (← get).transaction.readState
  let state := stored.getD .empty
  let previous ← ofExcept (ChangeVector.parse state.changeVector)
  startFrom previous
  let outcome ← work
  changeContext (·.recordEtag slice.source slice.lastEtag)
  let context := (← get).context
  let vector ← ofExcept (nextVector context previous)
  let next : ReplicationState :=
    ⟨advance context.etags state.lastEtagFrom, vector.getD state.changeVector⟩
  put .state Partition.stateKey (← ofExcept (Stored.octets next))
  return outcome

def logged (slice : Slice) : Command (List LogEntry) :=
  slice.around (logChanges slice.payloads slice.changes)

theorem attempt_applyChanges (changes : List Change) (outcome : SliceOutcome)
    (workspace : Workspace) :
    attempt (applyChanges payloads changes outcome) workspace =
      (attempt (logChanges payloads changes) workspace).map fun (log, next) =>
        (log.foldl SliceOutcome.note outcome, next) := by
  induction changes generalizing outcome workspace with
  | nil => rfl
  | cons change rest ih =>
      simp only [applyChanges, logChanges, attempt_bind, attempt_get, Except.ok_bind,
        Except.map_bind]
      congr 1
      funext result
      obtain ⟨written, applied⟩ := result
      cases written with
      | none =>
          simp only [attempt_bind, ih]
          cases attempt (logChanges payloads rest) applied <;> rfl
      | some vector =>
          simp only [attempt_bind, attempt_onContext, Except.bind_map, Except.map_bind, ih]
          rfl

theorem attempt_around_map (slice : Slice) {first : Command α} {last : Command β} {change : α → β}
    (same : ∀ workspace, attempt last workspace =
      (attempt first workspace).map fun (value, next) => (change value, next))
    (workspace : Workspace) :
    attempt (slice.around last) workspace =
      (attempt (slice.around first) workspace).map fun (value, next) => (change value, next) := by
  simp only [around, attempt_bind, attempt_get, attempt_pure, Except.ok_bind, same,
    Except.map_bind, Except.bind_map, Except.map_ok]

theorem attempt_execute (slice : Slice) (workspace : Workspace) :
    attempt slice.execute workspace =
      (attempt slice.logged workspace).map fun (log, next) => (.ofLog log, next) :=
  slice.attempt_around_map (attempt_applyChanges slice.changes ⟨0, 0⟩) workspace

end Slice

namespace Scheduler

variable {α β : Type}

theorem attempt_runAll_map {plain : Slice → Command α} {other : Slice → Command β} {change : β → α}
    (same : ∀ slice workspace, attempt (plain slice) workspace =
      (attempt (other slice) workspace).map fun (value, next) => (change value, next))
    (slices : List Slice) (workspace : Workspace) :
    attempt (runAll (slices.map plain)) workspace =
      (attempt (runAll (slices.map other)) workspace).map fun (values, next) =>
        (values.map change, next) := by
  induction slices generalizing workspace with
  | nil => rfl
  | cons slice rest ih =>
      simp only [List.map_cons, runAll, attempt_bind, attempt_pure, same, ih, Except.bind_map,
        Except.map_bind, Except.map_ok]

/-- Slices leave the same store whether or not they are logged, and their outcomes count the entries
of their logs. -/
theorem transact_execute (ignored : List String) (slices : List Slice) (store : Partition) :
    transact ignored (runAll (slices.map Slice.execute)) store =
      (transact ignored (runAll (slices.map Slice.logged)) store).map fun (logs, next) =>
        (logs.map SliceOutcome.ofLog, next) := by
  rw [transact_eq, transact_eq, attempt_runAll_map fun slice => slice.attempt_execute]
  simp only [Except.map_map]

/-- The log of a run of transactions and the store they leave; a transaction that fails leaves no
trace. -/
def logRun (ignored : List String) : List (List Slice) → Partition → List LogEntry × Partition
  | [], store => ([], store)
  | slices :: rest, store =>
    match transact ignored (runAll (slices.map Slice.logged)) store with
    | .ok (logs, next) =>
      let (others, final) := logRun ignored rest next
      (logs.flatten ++ others, final)
    | .error _ => logRun ignored rest store

end Scheduler

/-- Transactions that show the same records. -/
structure Transaction.SameRecords (first last : Transaction) : Prop where
  backend : first.base.backend = last.base.backend
  lookup : ∀ address : Table × String, address.1 ≠ .state →
    first.lookup? address = last.lookup? address

namespace Transaction.SameRecords

theorem trans (same : first.SameRecords between) (rest : between.SameRecords last) :
    first.SameRecords last :=
  ⟨same.backend.trans rest.backend,
    fun address records => (same.lookup address records).trans (rest.lookup address records)⟩

theorem of_sameView (same : first.SameView last) : first.SameRecords last :=
  ⟨same.backend, fun address _ => same.lookup address⟩

theorem of_put_state {key : String} {record : Bytes} (put : first.put .state key record = .ok last) :
    first.SameRecords last := by
  refine ⟨by rw [base_put put], fun address records => ?_⟩
  rw [lookup?_put put, if_neg]
  intro same
  exact records (congrArg Prod.fst same).symm

end Transaction.SameRecords

theorem Change.Known.sameRecords {change : Change} (known : change.Known ignored first)
    (same : first.SameRecords last) : change.Known ignored last := by
  apply known.of_get
  intro table member
  have record : table ≠ .state := by
    rintro rfl
    exact change.state_not_mem member
  rw [Transaction.get_eq, Transaction.get_eq, Transaction.address, Transaction.address,
    same.backend, same.lookup _ record]

/-- An entry tells what applying its change does to the transaction it met. -/
def LogEntry.Genuine (ignored : List String) (entry : LogEntry) : Prop :=
  ∃ payloads workspace next, workspace.context.ignored = ignored ∧
    workspace.transaction = entry.before ∧ next.transaction = entry.after ∧
    attempt (entry.change.apply payloads) workspace = .ok (entry.written, next)

/-- An entry tells what its change did to a workspace: how it was applied, and that the vector it was
written with entered the context. -/
structure LogEntry.Tells (payloads : Dictionary String Bytes) (entry : LogEntry)
    (before after : Workspace) : Prop where
  met : entry.before = before.transaction
  left : entry.after = after.transaction
  applied : entry.change.Applied payloads before.context.ignored before.transaction
    after.transaction entry.written
  follows : match entry.written with
    | some vector => ∃ current, before.context.Entered after.context current vector
    | none => before.context.SameProgress after.context
  genuine : entry.Genuine before.context.ignored

theorem LogEntry.Tells.step {entry : LogEntry} (tells : entry.Tells payloads before after) :
    Slice.Step entry.change payloads before after :=
  ⟨entry.written, tells.applied, tells.follows⟩

namespace LogEntry.Genuine

variable {entry : LogEntry}

theorem applied (genuine : entry.Genuine ignored) :
    ∃ payloads, entry.change.Applied payloads ignored entry.before entry.after entry.written := by
  obtain ⟨payloads, workspace, next, rfl, same, left, done⟩ := genuine
  rw [← same, ← left]
  exact ⟨payloads, (Change.attempt_apply done).1⟩

/-- A change that was known was skipped, and nothing was touched. -/
theorem skipped (genuine : entry.Genuine ignored) (known : entry.change.Known ignored entry.before) :
    entry.written = none ∧ entry.after = entry.before := by
  obtain ⟨payloads, workspace, next, rfl, same, left, done⟩ := genuine
  rw [← same] at known
  obtain ⟨context, -, skips⟩ := known.apply payloads
  rw [done] at skips
  obtain ⟨skipped, kept⟩ := Prod.mk.inj (Except.ok.inj skips)
  refine ⟨skipped, ?_⟩
  rw [← left, kept, ← same]

end LogEntry.Genuine

/-- Entries that lead from one transaction to another, with nothing in between that touches a
record. -/
inductive LogEntry.Leads (ignored : List String) : Transaction → List LogEntry → Transaction → Prop
  | nil {first last : Transaction} : first.SameRecords last → Leads ignored first [] last
  | cons {first last : Transaction} {entry : LogEntry} {rest : List LogEntry} :
      first.SameRecords entry.before → entry.Genuine ignored →
      Leads ignored entry.after rest last → Leads ignored first (entry :: rest) last

namespace LogEntry.Leads

variable {log others : List LogEntry}

theorem after_records (same : first.SameRecords between) (leads : Leads ignored between log last) :
    Leads ignored first log last := by
  cases leads with
  | nil rest => exact .nil (same.trans rest)
  | cons meets genuine rest => exact .cons (same.trans meets) genuine rest

theorem append (one : Leads ignored first log between) (two : Leads ignored between others last) :
    Leads ignored first (log ++ others) last := by
  induction one with
  | nil same => exact two.after_records same
  | cons meets genuine _ ih => exact .cons meets genuine (ih two)

end LogEntry.Leads

namespace Slice

variable {slice : Slice} {log : List LogEntry} {logs : List (List LogEntry)}

/-- A log tells its first change, and goes on with the others. -/
theorem logChanges_cons {change : Change} {rest : List Change}
    (done : attempt (logChanges payloads (change :: rest)) before = .ok (log, after)) :
    ∃ entry between others, log = entry :: others ∧ entry.change = change ∧
      entry.Tells payloads before between ∧
      attempt (logChanges payloads rest) between = .ok (others, after) := by
  simp only [logChanges, attempt_bind, attempt_get, Except.ok_bind, Except.bind_eq_ok_iff] at done
  obtain ⟨⟨written, applied⟩, one, done⟩ := done
  have genuine : LogEntry.Genuine before.context.ignored
      ⟨change, written, before.transaction, applied.transaction⟩ :=
    ⟨payloads, before, applied, rfl, rfl, rfl, one⟩
  obtain ⟨step, progress⟩ := Change.attempt_apply one
  cases written with
  | none =>
      simp only [attempt_bind, Except.bind_eq_ok_iff] at done
      obtain ⟨⟨others, left⟩, more, same⟩ := done
      cases same
      exact ⟨_, applied, others, rfl, rfl, ⟨rfl, rfl, step, progress, genuine⟩, more⟩
  | some vector =>
      simp only [attempt_bind, attempt_onContext, Except.bind_map, Except.bind_eq_ok_iff] at done
      obtain ⟨⟨⟨⟩, context⟩, merged, ⟨others, left⟩, more, same⟩ := done
      cases same
      obtain ⟨current, entered⟩ := Context.entered_of_mergeVector step.raises.legible merged
      exact ⟨_, { applied with context := context }, others, rfl, rfl,
        ⟨rfl, rfl, step, ⟨current, progress.entered entered⟩, genuine⟩, more⟩

theorem changes_of_logChanges {changes : List Change}
    (done : attempt (logChanges payloads changes) before = .ok (log, after)) :
    log.map (·.change) = changes := by
  induction changes generalizing before log with
  | nil =>
      cases done
      rfl
  | cons change rest ih =>
      obtain ⟨entry, between, others, rfl, rfl, -, more⟩ := logChanges_cons done
      rw [List.map_cons, ih more]

theorem logChanges_leads {changes : List Change}
    (done : attempt (logChanges payloads changes) before = .ok (log, after)) :
    LogEntry.Leads before.context.ignored before.transaction log after.transaction := by
  induction changes generalizing before log with
  | nil =>
      cases done
      exact .nil (.of_sameView (.refl _))
  | cons change rest ih =>
      obtain ⟨entry, between, others, rfl, rfl, tells, more⟩ := logChanges_cons done
      have leads := ih more
      rw [tells.step.ignored, ← tells.left] at leads
      refine .cons ?_ tells.genuine leads
      rw [tells.met]
      exact .of_sameView (.refl _)

/-- A logged execution is an execution, whose changes are told in the log. -/
theorem exists_executed (done : attempt slice.logged before = .ok (log, after)) :
    ∃ outcome stored previous started applied vector record,
      slice.Executed before after outcome stored previous started applied vector record ∧
      attempt (logChanges slice.payloads slice.changes) started = .ok (log, applied) := by
  simp only [logged, around, attempt_bind, attempt_get, Except.ok_bind, attempt_ofExcept,
    Except.bind_eq_ok_iff, Except.map_eq_ok_iff, Workspace.attempt_changeContext,
    Workspace.attempt_put, attempt_pure] at done
  obtain ⟨_, ⟨stored, read, rfl⟩, _, ⟨previous, parsed, rfl⟩, ⟨_, started⟩, start,
    ⟨entries, applied⟩, apply, _, ⟨vector, persisted, rfl⟩, _, ⟨record, encoded, rfl⟩, _,
    ⟨transaction, put, rfl⟩, same⟩ := done
  cases same
  have counted : attempt (applyChanges slice.payloads slice.changes ⟨0, 0⟩) started =
      .ok (entries.foldl SliceOutcome.note ⟨0, 0⟩, applied) :=
    (attempt_applyChanges ..).trans (congrArg (Except.map _) apply)
  exact ⟨_, stored, previous, started, applied, vector, record,
    ⟨read, parsed, start, counted, persisted, encoded, put, rfl⟩, apply⟩

theorem logged_leads (done : attempt slice.logged before = .ok (log, after)) :
    LogEntry.Leads before.context.ignored before.transaction log after.transaction ∧
      after.context.ignored = before.context.ignored := by
  obtain ⟨_, stored, previous, started, applied, vector, record, executed, apply⟩ :=
    exists_executed done
  have leads := logChanges_leads apply
  rw [← applyChanges_ignored executed.apply, executed.ignored,
    (startFrom_cases executed.legible executed.start).1] at leads
  have whole := leads.append (.nil (.of_put_state executed.put))
  rw [List.append_nil] at whole
  refine ⟨whole, ?_⟩
  rw [executed.context, ← executed.ignored]
  rfl

theorem runAll_logged_leads
    (done : attempt (Scheduler.runAll (slices.map logged)) before = .ok (logs, after)) :
    LogEntry.Leads before.context.ignored before.transaction logs.flatten after.transaction := by
  induction slices generalizing before logs with
  | nil =>
      cases done
      exact .nil (.of_sameView (.refl _))
  | cons slice rest ih =>
      obtain ⟨log, between, others, one, more, rfl⟩ := Scheduler.runAll_cons done
      obtain ⟨leads, names⟩ := logged_leads one
      have remaining := ih more
      rw [names] at remaining
      exact leads.append remaining

end Slice

/-- The log of a run leads from the store it began with to the store it left. -/
theorem Scheduler.logRun_leads (ignored : List String) (transactions : List (List Slice))
    (store : Partition) :
    LogEntry.Leads (Context.ignoring ignored).ignored store.begin
      (logRun ignored transactions store).1 (logRun ignored transactions store).2.begin := by
  induction transactions generalizing store with
  | nil => exact .nil (.of_sameView (.refl _))
  | cons slices rest ih =>
      simp only [logRun]
      split
      · rename_i logs next done
        obtain ⟨workspace, ran, rfl⟩ := transact_eq_ok_iff.mp done
        have leads := Slice.runAll_logged_leads ran
        have committed := Transaction.SameRecords.of_sameView
          workspace.transaction.sameView_begin_commit.symm
        exact leads.append ((ih workspace.transaction.commit).after_records committed)
      · exact ih store

end DocumentReplication
