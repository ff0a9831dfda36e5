import DocumentReplication.Commit.Scheduler
import DocumentReplication.Proofs.Commit.Application

/-!
Runs of slices. A slice that is executed applies its changes one by one to the transaction, and the
context follows with the vector that will be persisted. A property of transactions that every
application keeps holds after the run.
-/

namespace DocumentReplication

open Work

variable {payloads : Dictionary String Bytes} {vector : ChangeVector} {workspace next : Workspace}

namespace Context

variable {context after : Context} {current : ChangeVector}

theorem legible_accumulated (found : context.accumulated = .ok current) : current.Legible := by
  unfold accumulated at found
  split at found
  · exact ChangeVector.legible_of_parse found
  · cases found
    exact ChangeVector.legible_empty

/-- What a context accumulates when a vector enters: transactional entries and entries of ignored
instances stay out. -/
def enter (context : Context) (current vector : ChangeVector) : ChangeVector :=
  (current.merge vector).withoutTransactional.without context.ignored

theorem legible_enter (found : context.accumulated = .ok current) (legible : vector.Legible) :
    (context.enter current vector).Legible :=
  (((legible_accumulated found).merge legible).withoutTransactional).without _

theorem attempt_mergeVector (legible : vector.Legible) (context : Context) :
    attempt (mergeVector vector) context = context.accumulated.map fun current =>
      ((), { context.touch with vectorText := some (context.enter current vector).text }) := by
  cases found : context.accumulated with
  | error fault =>
      simp only [mergeVector, attempt_bind, attempt_get, Except.ok_bind, attempt_ofExcept, found,
        Except.map_error, Except.error_bind]
  | ok current =>
      have kept := keptText_text ((legible_accumulated found).merge legible) context.ignored
      have same : context.touch.ignored = context.ignored := rfl
      simp only [mergeVector, setVector, attempt_bind, attempt_get, Except.ok_bind,
        attempt_ofExcept, found, Except.map_ok, attempt_modify, same, kept, enter]

/-- The text a context keeps is the text of a vector that may be stored. -/
def Canonical (context : Context) : Prop :=
  ∀ text, context.vectorText = some text →
    ∃ vector : ChangeVector, text = vector.text ∧ vector.Legible ∧ vector.Storable context.ignored

theorem SameProgress.canonical (same : context.SameProgress after) (canonical : context.Canonical) :
    after.Canonical := by
  intro text kept
  rw [same.vectorText] at kept
  rw [same.ignored]
  exact canonical text kept

theorem SameProgress.accumulated (same : context.SameProgress after) :
    after.accumulated = context.accumulated := by
  rw [Context.accumulated, same.vectorText, Context.accumulated]

structure Entered (context after : Context) (current vector : ChangeVector) : Prop where
  found : context.accumulated = .ok current
  text : after.vectorText = some (context.enter current vector).text
  accumulated : after.accumulated = .ok (context.enter current vector)
  canonical : after.Canonical
  etags : after.etags = context.etags
  ignored : after.ignored = context.ignored

theorem SameProgress.entered {between : Context} (same : context.SameProgress between)
    (entered : between.Entered after current vector) : context.Entered after current vector := by
  have enters : between.enter current vector = context.enter current vector := by
    rw [enter, same.ignored, enter]
  exact ⟨same.accumulated.symm.trans entered.found, by rw [entered.text, enters],
    by rw [entered.accumulated, enters], entered.canonical, entered.etags.trans same.etags,
    entered.ignored.trans same.ignored⟩

theorem entered_of_mergeVector (legible : vector.Legible)
    (done : attempt (mergeVector vector) context = .ok ((), after)) :
    ∃ current, context.Entered after current vector := by
  rw [attempt_mergeVector legible, Except.map_eq_ok_iff] at done
  obtain ⟨current, found, same⟩ := done
  cases same
  have parsed := ChangeVector.parse_text (legible_enter found legible)
  refine ⟨current, found, rfl, parsed, fun text kept => ?_, rfl, rfl⟩
  cases kept
  exact ⟨_, rfl, legible_enter found legible, ChangeVector.storable_filtered _ _⟩

theorem fresh_ignoreAll (instanceIds : List String) (context : Context) :
    (context.ignoreAll instanceIds).vectorText = context.vectorText ∧
      (context.ignoreAll instanceIds).etags = context.etags := by
  induction instanceIds generalizing context with
  | nil => exact ⟨rfl, rfl⟩
  | cons first rest ih => exact ih (context.ignore first)

@[simp] theorem vectorText_ignoring (instanceIds : List String) :
    (ignoring instanceIds).vectorText = none :=
  (fresh_ignoreAll instanceIds fresh).1

@[simp] theorem etags_ignoring (instanceIds : List String) :
    (ignoring instanceIds).etags = .empty :=
  (fresh_ignoreAll instanceIds fresh).2

theorem canonical_ignoring (instanceIds : List String) : (ignoring instanceIds).Canonical := by
  intro text kept
  rw [vectorText_ignoring] at kept
  contradiction

end Context

theorem Scheduler.transact_eq {α : Type} (ignored : List String) (command : Command α)
    (store : Partition) :
    transact ignored command store =
      (attempt command ⟨.ignoring ignored, store.begin⟩).map fun (result, workspace) =>
        (result, workspace.transaction.commit) := by
  simp only [transact, attempt]
  cases command ⟨.ignoring ignored, store.begin⟩ with
  | mk outcome workspace => cases outcome <;> rfl

theorem Scheduler.transact_eq_ok_iff {α : Type} {ignored : List String} {command : Command α}
    {store next : Partition} {result : α} :
    transact ignored command store = .ok (result, next) ↔
      ∃ workspace, attempt command ⟨.ignoring ignored, store.begin⟩ = .ok (result, workspace) ∧
        workspace.transaction.commit = next := by
  rw [transact_eq, Except.map_eq_ok_iff]
  constructor
  · rintro ⟨⟨value, workspace⟩, done, same⟩
    cases same
    exact ⟨workspace, done, rfl⟩
  · rintro ⟨workspace, done, rfl⟩
    exact ⟨_, done, rfl⟩

theorem Scheduler.runAll_cons {α : Type} {command : Command α} {rest : List (Command α)}
    {results : List α} {before after : Workspace}
    (done : attempt (runAll (command :: rest)) before = .ok (results, after)) :
    ∃ first between others, attempt command before = .ok (first, between) ∧
      attempt (runAll rest) between = .ok (others, after) ∧ results = first :: others := by
  simp only [runAll, attempt_bind, attempt_pure, Except.bind_eq_ok_iff] at done
  obtain ⟨⟨first, between⟩, one, ⟨others, left⟩, more, same⟩ := done
  cases same
  exact ⟨first, between, others, one, more, rfl⟩

theorem Scheduler.transact_runAll_singleton {α : Type} (ignored : List String) (command : Command α)
    (store : Partition) :
    transact ignored (runAll [command]) store =
      (transact ignored command store).map fun (result, next) => ([result], next) := by
  rw [transact_eq, transact_eq]
  simp only [runAll, attempt_bind, attempt_pure, Except.ok_bind]
  cases attempt command ⟨.ignoring ignored, store.begin⟩ <;> rfl

namespace Slice

variable {change : Change} {changes rest : List Change} {outcome result : SliceOutcome}
  {before after : Workspace}

/-- One change of a run: it is applied, and the vector it was written with enters the context. -/
def Step (change : Change) (payloads : Dictionary String Bytes) (before after : Workspace) : Prop :=
  ∃ written,
    change.Applied payloads before.context.ignored before.transaction after.transaction written ∧
      match written with
      | some vector => ∃ current, before.context.Entered after.context current vector
      | none => before.context.SameProgress after.context

theorem Step.ignored (step : Step change payloads before after) :
    after.context.ignored = before.context.ignored := by
  obtain ⟨written, -, follows⟩ := step
  cases written with
  | none => exact follows.ignored
  | some vector => exact follows.elim fun _ entered => entered.ignored

theorem Step.etags (step : Step change payloads before after) :
    after.context.etags = before.context.etags := by
  obtain ⟨written, -, follows⟩ := step
  cases written with
  | none => exact follows.etags
  | some vector => exact follows.elim fun _ entered => entered.etags

theorem Step.canonical (step : Step change payloads before after)
    (canonical : before.context.Canonical) : after.context.Canonical := by
  obtain ⟨written, -, follows⟩ := step
  cases written with
  | none => exact follows.canonical canonical
  | some vector => exact follows.elim fun _ entered => entered.canonical

theorem applyChanges_cons
    (done : attempt (applyChanges payloads (change :: rest) outcome) workspace = .ok (result, next)) :
    ∃ between counted, Step change payloads workspace between ∧
      attempt (applyChanges payloads rest counted) between = .ok (result, next) := by
  simp only [applyChanges, attempt_bind, Except.bind_eq_ok_iff] at done
  obtain ⟨⟨written, applied⟩, first, done⟩ := done
  obtain ⟨step, progress⟩ := Change.attempt_apply first
  cases written with
  | none => exact ⟨applied, _, ⟨none, step, progress⟩, done⟩
  | some vector =>
      simp only [attempt_bind, Workspace.attempt_onContext, Except.bind_eq_ok_iff,
        Except.map_eq_ok_iff] at done
      obtain ⟨_, ⟨⟨⟨⟩, context⟩, merged, rfl⟩, done⟩ := done
      obtain ⟨current, entered⟩ := Context.entered_of_mergeVector step.raises.legible merged
      exact ⟨{ applied with context := context }, _,
        ⟨some vector, step, current, progress.entered entered⟩, done⟩

theorem applyChanges_invariant (holds : Workspace → Prop)
    (done : attempt (applyChanges payloads changes outcome) workspace = .ok (result, next))
    (each : ∀ change ∈ changes, ∀ before after, Step change payloads before after →
      holds before → holds after)
    (start : holds workspace) : holds next := by
  induction changes generalizing workspace outcome with
  | nil =>
      cases done
      exact start
  | cons change rest ih =>
      obtain ⟨between, counted, step, done⟩ := applyChanges_cons done
      exact ih done (fun later member => each later (List.mem_cons_of_mem _ member))
        (each change List.mem_cons_self _ _ step start)

theorem applyChanges_ignored
    (done : attempt (applyChanges payloads changes outcome) workspace = .ok (result, next)) :
    next.context.ignored = workspace.context.ignored :=
  applyChanges_invariant (fun between => between.context.ignored = workspace.context.ignored) done
    (fun _ _ _ _ step same => step.ignored.trans same) rfl

theorem applyChanges_etags
    (done : attempt (applyChanges payloads changes outcome) workspace = .ok (result, next)) :
    next.context.etags = workspace.context.etags :=
  applyChanges_invariant (fun between => between.context.etags = workspace.context.etags) done
    (fun _ _ _ _ step same => step.etags.trans same) rfl

theorem applyChanges_canonical
    (done : attempt (applyChanges payloads changes outcome) workspace = .ok (result, next))
    (canonical : workspace.context.Canonical) : next.context.Canonical :=
  applyChanges_invariant (fun between => between.context.Canonical) done
    (fun _ _ _ _ step => step.canonical) canonical

theorem applyChanges_transaction (holds : Transaction → Prop)
    (done : attempt (applyChanges payloads changes outcome) workspace = .ok (result, next))
    (each : ∀ change ∈ changes, ∀ before after written,
      change.Applied payloads workspace.context.ignored before after written →
        holds before → holds after)
    (start : holds workspace.transaction) : holds next.transaction :=
  (applyChanges_invariant (fun between =>
    between.context.ignored = workspace.context.ignored ∧ holds between.transaction) done
    (fun change member before after step ⟨same, kept⟩ => by
      refine ⟨step.ignored.trans same, ?_⟩
      obtain ⟨written, applied, -⟩ := step
      rw [same] at applied
      exact each change member _ _ _ applied kept) ⟨rfl, start⟩).2

theorem applyChanges_vectorText
    (done : attempt (applyChanges payloads changes outcome) workspace = .ok (result, next))
    (present : workspace.context.vectorText ≠ none) : next.context.vectorText ≠ none :=
  applyChanges_invariant (fun between => between.context.vectorText ≠ none) done
    (fun _ _ _ _ ⟨written, _, follows⟩ kept => by
      cases written with
      | none => rwa [follows.vectorText]
      | some vector =>
          obtain ⟨current, entered⟩ := follows
          rw [entered.text]
          exact nofun) present

theorem startFrom_cases {previous : ChangeVector} (legible : previous.Legible)
    (done : attempt (startFrom previous) workspace = .ok ((), next)) :
    next.transaction = workspace.transaction ∧
      (previous = .empty ∧ next = workspace ∨
        ∃ current, workspace.context.Entered next.context current
          (previous.without workspace.context.ignored)) := by
  have merges (flagged : Workspace) (same : workspace.context.SameProgress flagged.context)
      (done : attempt (Workspace.onContext (Context.mergeVector
        (previous.without workspace.context.ignored))) flagged = .ok ((), next)) :
      next.transaction = flagged.transaction ∧
        ∃ current, workspace.context.Entered next.context current
          (previous.without workspace.context.ignored) := by
    simp only [Workspace.attempt_onContext, Except.map_eq_ok_iff] at done
    obtain ⟨⟨⟨⟩, context⟩, merged, left⟩ := done
    cases left
    obtain ⟨current, entered⟩ := Context.entered_of_mergeVector (legible.without _) merged
    exact ⟨rfl, current, same.entered entered⟩
  unfold startFrom at done
  split at done
  · simp only [attempt_bind, attempt_get, Except.ok_bind] at done
    split at done
    · simp only [attempt_bind, Workspace.attempt_changeContext, Except.ok_bind] at done
      obtain ⟨transaction, entered⟩ := merges { workspace with context := workspace.context.skipValidation }
        ⟨rfl, rfl, rfl⟩ done
      exact ⟨transaction, .inr entered⟩
    · obtain ⟨transaction, entered⟩ := merges _ (.refl _) done
      exact ⟨transaction, .inr entered⟩
  · rename_i nothing
    cases done
    exact ⟨rfl, .inl ⟨ChangeVector.isEmpty_iff.mp (by simpa using nothing), rfl⟩⟩

theorem startFrom_etags {previous : ChangeVector} (legible : previous.Legible)
    (done : attempt (startFrom previous) workspace = .ok ((), next)) :
    next.context.etags = workspace.context.etags := by
  obtain ⟨-, ⟨-, rfl⟩ | ⟨current, entered⟩⟩ := startFrom_cases legible done
  · rfl
  · exact entered.etags

theorem nextVector_eq_none_iff {context : Context} {previous : ChangeVector} :
    nextVector context previous = .ok none ↔ context.vectorText = none := by
  unfold nextVector
  split
  · rename_i nothing
    simp [nothing]
  · rename_i text kept
    simp only [kept, reduceCtorEq, iff_false, Except.bind_eq_ok_iff, not_exists, not_and]
    intro current _
    split <;> simp [throw, throwThe, MonadExceptOf.throw]

theorem nextVector_eq_some {context : Context} {previous : ChangeVector} {text : String}
    (done : nextVector context previous = .ok (some text)) : context.vectorText = some text := by
  unfold nextVector at done
  split at done
  · cases done
  · rename_i kept present
    obtain ⟨current, -, done⟩ := Except.bind_eq_ok_iff.mp done
    split at done
    · cases done
    · cases done
      exact present

theorem nextVector_eq_ok {context : Context} {previous : ChangeVector} {text : Option String}
    (done : nextVector context previous = .ok text) : context.vectorText = text := by
  cases text with
  | none => exact nextVector_eq_none_iff.mp done
  | some text => exact nextVector_eq_some done

/-- Nothing can be lost where the current vector covers what was persisted. -/
theorem nextVector_of_covers {context : Context} {previous current : ChangeVector} {text : String}
    (kept : context.vectorText = some text) (parsed : ChangeVector.parse text = .ok current)
    (covers : current.covers previous = true) : nextVector context previous = .ok (some text) := by
  have standing : ChangeVector.compare previous current = .alreadyMerged := by
    rw [ChangeVector.compare, if_pos covers]
  simp only [nextVector, kept, parsed, Except.ok_bind, standing, ne_eq, not_true_eq_false,
    and_false, if_false]
  rfl

/-- The state a slice leaves, after it met a state and its context came to a vector. -/
def nextState (slice : Slice) (context : Context) (state : ReplicationState)
    (vector : Option String) : ReplicationState :=
  ⟨advance (context.recordEtag slice.source slice.lastEtag).etags state.lastEtagFrom,
    vector.getD state.changeVector⟩

/-- A successful execution: the state that is met, the workspaces after starting and after applying
the changes, and the vector and the record that are persisted. -/
structure Executed (slice : Slice) (before after : Workspace) (outcome : SliceOutcome)
    (stored : Option ReplicationState) (previous : ChangeVector) (started applied : Workspace)
    (vector : Option String) (record : Bytes) : Prop where
  read : before.transaction.readState = .ok stored
  parsed : ChangeVector.parse (stored.getD .empty).changeVector = .ok previous
  start : attempt (startFrom previous) before = .ok ((), started)
  apply : attempt (applyChanges slice.payloads slice.changes ⟨0, 0⟩) started = .ok (outcome, applied)
  persisted : nextVector (applied.context.recordEtag slice.source slice.lastEtag) previous = .ok vector
  encoded : Stored.octets (slice.nextState applied.context (stored.getD .empty) vector) = .ok record
  put : applied.transaction.put .state Partition.stateKey record = .ok after.transaction
  context : after.context = applied.context.recordEtag slice.source slice.lastEtag

theorem attempt_execute_iff {slice : Slice} :
    attempt slice.execute workspace = .ok (outcome, next) ↔
      ∃ stored previous started applied vector record,
        slice.Executed workspace next outcome stored previous started applied vector record := by
  simp only [execute, attempt_bind, attempt_get, Except.ok_bind, attempt_ofExcept,
    Except.bind_eq_ok_iff, Except.map_eq_ok_iff, Workspace.attempt_changeContext,
    Workspace.attempt_put, attempt_pure]
  constructor
  · rintro ⟨_, ⟨stored, read, rfl⟩, _, ⟨previous, parsed, rfl⟩, ⟨_, started⟩, start,
      ⟨counted, applied⟩, apply, _, ⟨vector, persisted, rfl⟩, _, ⟨record, encoded, rfl⟩,
      _, ⟨transaction, put, rfl⟩, same⟩
    cases same
    exact ⟨stored, previous, started, applied, vector, record, read, parsed, start, apply,
      persisted, encoded, put, rfl⟩
  · rintro ⟨stored, previous, started, applied, vector, record, executed⟩
    obtain ⟨read, parsed, start, apply, persisted, encoded, put, context⟩ := executed
    obtain ⟨finished, transaction⟩ := next
    cases context
    exact ⟨_, ⟨stored, read, rfl⟩, _, ⟨previous, parsed, rfl⟩, _, start, _, apply, _,
      ⟨vector, persisted, rfl⟩, _, ⟨record, encoded, rfl⟩, _, ⟨transaction, put, rfl⟩, rfl⟩

namespace Executed

variable {slice : Slice} {stored : Option ReplicationState} {previous : ChangeVector}
  {started applied : Workspace} {text : Option String} {record : Bytes}

theorem legible (executed : slice.Executed before after outcome stored previous started applied text
    record) : previous.Legible :=
  ChangeVector.legible_of_parse executed.parsed

/-- The next transaction meets the state that this one wrote. -/
theorem readState (executed : slice.Executed before after outcome stored previous started applied
    text record) : after.transaction.readState =
      .ok (some (slice.nextState applied.context (stored.getD .empty) text)) :=
  Transaction.readState_of_get (Transaction.get_put executed.put) executed.encoded

theorem ignored (executed : slice.Executed before after outcome stored previous started applied text
    record) : applied.context.ignored = before.context.ignored := by
  rw [applyChanges_ignored executed.apply]
  obtain ⟨-, ⟨-, same⟩ | ⟨current, entered⟩⟩ := startFrom_cases executed.legible executed.start
  · rw [same]
  · exact entered.ignored

theorem etags (executed : slice.Executed before after outcome stored previous started applied text
    record) : applied.context.etags = before.context.etags :=
  (applyChanges_etags executed.apply).trans (startFrom_etags executed.legible executed.start)

/-- What every change of a slice keeps is left when all of them were applied. -/
theorem changes_keep (executed : slice.Executed before after outcome stored previous started applied
    text record) (holds : Transaction → Prop)
    (each : ∀ change ∈ slice.changes, ∀ first last written,
      change.Applied slice.payloads before.context.ignored first last written →
        holds first → holds last)
    (start : holds before.transaction) : holds applied.transaction := by
  have same : started.context.ignored = before.context.ignored := by
    rw [← applyChanges_ignored executed.apply, executed.ignored]
  rw [← same] at each
  rw [← (startFrom_cases executed.legible executed.start).1] at start
  exact applyChanges_transaction holds executed.apply each start

end Executed

end Slice

end DocumentReplication
