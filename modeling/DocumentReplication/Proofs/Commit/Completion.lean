import DocumentReplication.Proofs.Commit.Room
import DocumentReplication.Proofs.Commit.Validation

/-!
What makes a slice fail. Where the store takes the keys, as a store in memory takes any, the records can
be read and the vectors parse, what is written fits, and nothing that is persisted is lost. What is left
is an attachment without content when its turn comes.
-/

namespace DocumentReplication

open Work Workspace

variable {payloads : Dictionary String Bytes} {ignored : List String} {change : Change}
  {holds : VectorEntry → Prop} {work before after : Transaction} {workspace next : Workspace}
  {hash documentId key : String} {vector floor : ChangeVector} {backend : Backend}

/-- Every store takes the key of the state. -/
theorem Backend.checkKey_stateKey (backend : Backend) :
    backend.checkKey Partition.stateKey = .ok () := by
  cases backend <;> rfl

namespace Transaction

theorem exists_get (allowed : work.base.backend.checkKey key = .ok ()) (table : Table) :
    ∃ found, work.get table key = .ok found := by
  rw [get_eq, allowed]
  exact ⟨_, rfl⟩

theorem Readable.exists_vectorAt (readable : work.Readable holds)
    (allowed : work.base.backend.checkKey key = .ok ()) (table : Table) (records : table ≠ .state) :
    ∃ found, work.vectorAt table key = .ok found := by
  obtain ⟨bytes, got⟩ := exists_get allowed table
  rw [vectorAt, got, Except.ok_bind]
  cases bytes with
  | none => exact ⟨none, rfl⟩
  | some bytes =>
      obtain ⟨stored, there, rfl⟩ := Option.map_eq_some_iff.mp (get_eq_ok_iff.mp got).2
      obtain ⟨record, -, decoded, -⟩ := readable _ stored there records
      refine ⟨some (table.vectorOf record), ?_⟩
      exact Except.bind_eq_ok_iff.mpr ⟨record, decoded, rfl⟩

theorem Readable.exists_homeVector {home : Table} (readable : work.Readable holds)
    (allowed : work.base.backend.checkKey key = .ok ()) (versioned : .state ∉ Change.tablesOf home) :
    ∃ found, work.homeVector home key = .ok found := by
  cases home <;> simp only [Transaction.homeVector]
  case documents =>
    obtain ⟨document, found⟩ := readable.exists_vectorAt allowed .documents (by decide)
    rw [found, Except.ok_bind]
    cases document with
    | some text => exact ⟨some text, rfl⟩
    | none => exact readable.exists_vectorAt allowed .tombstones (by decide)
  case state => exact absurd List.mem_cons_self versioned
  all_goals exact readable.exists_vectorAt allowed _ (by decide)

end Transaction

namespace Change

/-- A store takes the keys that a change is kept under and its content is named by. -/
structure Allowed (change : Change) (backend : Backend) : Prop where
  record : backend.checkKey change.key = .ok ()
  content : ∀ hash, change.hash? = some hash → backend.checkKey hash = .ok ()

theorem allowed_of_memory (memory : backend = .memory) : change.Allowed backend := by
  subst memory
  exact ⟨rfl, fun _ _ => rfl⟩

/-- An attachment that is not known yet has no content: none comes along, and none is stored. -/
structure LacksContent (change : Change) (payloads : Dictionary String Bytes)
    (ignored : List String) (work : Transaction) (hash documentId : String) : Prop where
  attached : ∃ name contentType, change.body = .attachment documentId name contentType hash
  unknown : ¬ change.Known ignored work
  unprovided : payloads.get? hash = none
  unstored : work.get .attachmentBlobs hash = .ok none

theorem Applied.not_lacksContent {written : Option ChangeVector}
    (applied : change.Applied payloads ignored before after written) :
    ¬ change.LacksContent payloads ignored before hash documentId := by
  intro lacks
  obtain ⟨name, contentType, body⟩ := lacks.attached
  have needed : change.hash? = some hash := by rw [hash?, body, ChangeBody.hash?]
  cases applied with
  | known known => exact lacks.unknown known
  | written raises provides writes =>
      obtain ⟨other, content, same, provided, -⟩ | ⟨-, found⟩ := provides.cases
      · cases needed.symm.trans same
        cases lacks.unprovided.symm.trans provided
      · obtain ⟨content, stored⟩ := found hash needed
        cases lacks.unstored.symm.trans stored

theorem provideContent_of_revision (revision : change.kind = .revisionTombstone) :
    change.provideContent payloads = pure () := by
  obtain ⟨header, body⟩ := change
  cases body <;> cases revision
  rfl

theorem exists_provideContent (payloads : Dictionary String Bytes) (workspace : Workspace)
    (allowed : change.Allowed workspace.transaction.base.backend)
    (unknown : ¬ change.Known ignored workspace.transaction) :
    (∃ provided, attempt (change.provideContent payloads) workspace = .ok ((), provided)) ∨
      ∃ hash documentId,
        change.LacksContent payloads ignored workspace.transaction hash documentId ∧
          attempt (change.provideContent payloads) workspace =
            .error (.missingAttachment hash documentId) := by
  unfold provideContent
  split
  · rename_i documentId name contentType hash body
    have named := allowed.content hash (by rw [hash?, body, ChangeBody.hash?])
    cases provided : payloads.get? hash with
    | some content =>
        obtain ⟨transaction, put⟩ := Transaction.exists_put named .attachmentBlobs content
        simp only [attempt_put, put, Except.map_ok]
        exact .inl ⟨_, rfl⟩
    | none =>
        obtain ⟨found, got⟩ := Transaction.exists_get named .attachmentBlobs
        simp only [attempt_bind, attempt_fetch, got, Except.map_ok, Except.ok_bind]
        cases found with
        | some content => exact .inl ⟨workspace, rfl⟩
        | none =>
            exact .inr ⟨hash, documentId, ⟨⟨name, contentType, body⟩, unknown, provided, got⟩, rfl⟩
  · exact .inl ⟨workspace, rfl⟩

theorem exists_displace
    (allowed : workspace.transaction.base.backend.checkKey change.key = .ok ()) :
    ∃ displaced, attempt (do if let some table := change.displaced? then
      Workspace.delete table change.key) workspace = .ok ((), displaced) := by
  split
  · rename_i table _
    obtain ⟨transaction, deleted⟩ := Transaction.exists_delete allowed table
    rw [attempt_delete, deleted]
    exact ⟨_, rfl⟩
  · exact ⟨workspace, rfl⟩

theorem exists_write (allowed : workspace.transaction.base.backend.checkKey change.key = .ok ())
    (fits : ∃ record, change.record? vector.text = .ok record) :
    ∃ written, attempt (change.write vector) workspace = .ok ((), written) := by
  obtain ⟨record, made⟩ := fits
  simp only [Change.write, attempt_bind, attempt_ofExcept, made, Except.map_ok, Except.ok_bind]
  cases record with
  | none => exact exists_displace allowed
  | some record =>
      obtain ⟨transaction, put⟩ := Transaction.exists_put allowed change.table record
      simp only [putRecord, attempt_bind, attempt_changeContext, attempt_put, put, Except.map_ok,
        Except.ok_bind]
      apply exists_displace
      rw [Transaction.base_put put]
      exact allowed

theorem exists_settled {incoming : ChangeVector} {dropped : Bool} {stored : Option String}
    (readable : work.Readable holds) (compared : change.kind ≠ .revisionTombstone)
    (unknown : ¬ change.Known ignored work)
    (read : change.incoming ignored = .ok (incoming, dropped))
    (found : work.homeVector change.home change.key = .ok stored) :
    ∃ vector, change.Raises ignored work vector ∧ ∀ workspace : Workspace,
      attempt (settling ignored incoming stored) workspace = .ok (some vector, workspace) := by
  cases stored with
  | none => exact ⟨incoming, raises_incoming read fun _ => found, fun _ => rfl⟩
  | some text =>
      obtain ⟨known, parsed, -⟩ := readable.homeVector change.state_not_mem found
      cases outcome : incoming.settle (known.without ignored) with
      | none =>
          have covers := ChangeVector.settle_eq_none_iff.mp outcome
          exact absurd (.covered compared read found parsed covers) unknown
      | some vector =>
          refine ⟨vector, raises_settled compared read found parsed outcome, fun workspace => ?_⟩
          simp only [settling, Option.elim_some, attempt_bind, attempt_ofExcept, parsed,
            Except.map_ok, Except.ok_bind, outcome, attempt_pure]

/-- A change that is not known yet gets a vector to be written with. -/
theorem attempt_apply_of_unknown (payloads : Dictionary String Bytes)
    (allowed : workspace.transaction.base.backend.checkKey change.key = .ok ())
    (readable : workspace.transaction.Readable holds)
    (legible : ∃ vector, ChangeVector.parse change.header.changeVector = .ok vector)
    (unknown : ¬ change.Known workspace.context.ignored workspace.transaction) :
    ∃ vector context, change.Raises workspace.context.ignored workspace.transaction vector ∧
      attempt (change.apply payloads) workspace =
        attempt (do
          change.provideContent payloads
          change.write vector
          return some vector) { workspace with context := context } := by
  obtain ⟨whole, parsed⟩ := legible
  obtain ⟨incoming, dropped, read⟩ : ∃ incoming dropped,
      change.incoming workspace.context.ignored = .ok (incoming, dropped) :=
    ⟨_, _, incoming_eq_ok_iff.mpr ⟨whole, parsed, rfl, rfl⟩⟩
  by_cases compared : change.kind = .revisionTombstone
  · obtain ⟨found, got⟩ := Transaction.exists_get allowed .revisionTombstones
    cases found with
    | some record => exact absurd (.noted compared got) unknown
    | none =>
        refine ⟨incoming, workspace.context, raises_incoming read (absurd compared), ?_⟩
        simp only [Change.apply, if_pos compared, applyRevision, attempt_bind, attempt_fetch, got,
          Except.map_ok, Except.ok_bind, attempt_get, attempt_ofExcept, read,
          provideContent_of_revision compared, attempt_pure, Option.isSome_none, Bool.false_eq_true,
          if_false]
  · obtain ⟨stored, found⟩ := readable.exists_homeVector allowed change.state_not_mem
    obtain ⟨vector, raises, settled⟩ := exists_settled readable compared unknown read found
    refine ⟨vector, if dropped then workspace.context.skipValidation else workspace.context,
      raises, ?_⟩
    simp only [Change.apply, if_neg compared, resolve_eq, attempt_bind, attempt_get,
      attempt_ofExcept, storedVector_eq, found, read, Except.map_ok, Except.ok_bind]
    cases dropped with
    | false => simp only [Bool.false_eq_true, if_false, settled, Except.ok_bind, attempt_bind]
    | true =>
        simp only [if_true, attempt_bind, attempt_changeContext, settled, Except.ok_bind]

/-- A change is applied unless it lacks content. -/
theorem exists_apply (payloads : Dictionary String Bytes)
    (allowed : change.Allowed workspace.transaction.base.backend)
    (readable : workspace.transaction.Readable holds)
    (legible : ∃ vector, ChangeVector.parse change.header.changeVector = .ok vector)
    (fits : ∀ vector, change.Raises workspace.context.ignored workspace.transaction vector →
      ∃ record, change.record? vector.text = .ok record) :
    (∃ written next, attempt (change.apply payloads) workspace = .ok (written, next)) ∨
      ∃ hash documentId, change.LacksContent payloads workspace.context.ignored
          workspace.transaction hash documentId ∧
        attempt (change.apply payloads) workspace = .error (.missingAttachment hash documentId) := by
  by_cases known : change.Known workspace.context.ignored workspace.transaction
  · obtain ⟨context, -, applied⟩ := known.apply payloads
    exact .inl ⟨none, _, applied⟩
  · obtain ⟨vector, context, raises, applies⟩ :=
      attempt_apply_of_unknown payloads allowed.record readable legible known
    rw [applies]
    obtain ⟨provided, provides⟩ | ⟨hash, documentId, lacks, failed⟩ :=
      exists_provideContent payloads { workspace with context := context } allowed known
    · have kept : provided.transaction.base.backend.checkKey change.key = .ok () := by
        rw [(attempt_provideContent provides).1.base]
        exact allowed.record
      obtain ⟨written, writes⟩ := exists_write kept (fits vector raises)
      refine .inl ⟨some vector, written, ?_⟩
      simp only [attempt_bind, provides, writes, Except.ok_bind, attempt_pure]
    · refine .inr ⟨hash, documentId, lacks, ?_⟩
      simp only [attempt_bind, failed, Except.error_bind]

theorem Known.of_ignored {other : List String} (known : change.Known ignored work)
    (read : change.incoming ignored = change.incoming other)
    (kept : ∀ vector : ChangeVector, vector.without ignored = vector.without other) :
    change.Known other work := by
  cases known with
  | noted revision found => exact .noted revision found
  | covered compared incoming found parsed covers =>
      exact .covered compared (read ▸ incoming) found parsed (kept _ ▸ covers)

theorem known_ignoring :
    change.Known (Context.ignoring ignored).ignored work ↔ change.Known ignored work := by
  have read := change.incoming_ignoring ignored
  have kept (vector : ChangeVector) := vector.without_ignoring ignored
  exact ⟨fun known => known.of_ignored read kept,
    fun known => known.of_ignored read.symm fun vector => (kept vector).symm⟩

theorem lacksContent_ignoring :
    change.LacksContent payloads (Context.ignoring ignored).ignored work hash documentId ↔
      change.LacksContent payloads ignored work hash documentId := by
  constructor
  · intro ⟨attached, unknown, unprovided, unstored⟩
    exact ⟨attached, mt known_ignoring.mpr unknown, unprovided, unstored⟩
  · intro ⟨attached, unknown, unprovided, unstored⟩
    exact ⟨attached, mt known_ignoring.mp unknown, unprovided, unstored⟩

theorem LacksContent.unique {otherHash otherId : String} {twin : Transaction}
    (lacks : change.LacksContent payloads ignored work hash documentId)
    (again : change.LacksContent payloads ignored twin otherHash otherId) :
    hash = otherHash ∧ documentId = otherId := by
  obtain ⟨name, contentType, body⟩ := lacks.attached
  obtain ⟨otherName, otherType, same⟩ := again.attached
  cases body.symm.trans same
  exact ⟨rfl, rfl⟩

/-- What a slice asks of its changes: the store takes their keys, the vector parses, and what is brought
and written is within bounds. -/
structure Acceptable (change : Change) (backend : Backend) (ignored : List String)
    (holds : VectorEntry → Prop) : Prop where
  allowed : change.Allowed backend
  legible : ∃ vector, ChangeVector.parse change.header.changeVector = .ok vector
  carries : change.Carries ignored holds
  fits : ∀ vector : ChangeVector, (∀ entry ∈ vector.entries, holds entry) →
    ∃ record, change.record? vector.text = .ok record

end Change

namespace Slice

variable {changes rest : List Change} {outcome result : SliceOutcome} {fault : Fault}

theorem Step.base (step : Step change payloads workspace next) :
    next.transaction.base = workspace.transaction.base := by
  obtain ⟨written, applied, -⟩ := step
  exact applied.base

theorem applyChanges_ahead (plain : ∀ entry, holds entry → entry.isTransactional = false)
    (carries : ∀ change ∈ changes, change.Carries ignored holds)
    (ahead : workspace.Ahead holds ignored floor)
    (done : attempt (applyChanges payloads changes outcome) workspace = .ok (result, next)) :
    next.Ahead holds ignored floor ∧ next.transaction.base = workspace.transaction.base := by
  refine applyChanges_invariant (fun reached => reached.Ahead holds ignored floor ∧
    reached.transaction.base = workspace.transaction.base) done ?_ ⟨ahead, rfl⟩
  intro change member before after step ⟨held, same⟩
  exact ⟨step.ahead plain (carries change member) held, step.base.trans same⟩

/-- A change that was applied is counted, and the changes after it are next. -/
theorem exists_step_of_apply {written : Option ChangeVector} {applied : Workspace}
    (canonical : workspace.context.Canonical)
    (done : attempt (change.apply payloads) workspace = .ok (written, applied))
    (outcome : SliceOutcome) :
    ∃ counted between, Step change payloads workspace between ∧
      ∀ rest, attempt (applyChanges payloads (change :: rest) outcome) workspace =
        attempt (applyChanges payloads rest counted) between := by
  obtain ⟨effect, progress⟩ := Change.attempt_apply done
  cases written with
  | none =>
      refine ⟨{ outcome with skipped := outcome.skipped + 1 }, applied,
        ⟨none, effect, progress⟩, fun rest => ?_⟩
      simp only [applyChanges, attempt_bind, done, Except.ok_bind]
  | some vector =>
      have legible := effect.raises.legible
      obtain ⟨current, accumulated⟩ := (progress.canonical canonical).exists_accumulated
      obtain ⟨context, merged⟩ : ∃ context,
          attempt (Context.mergeVector vector) applied.context = .ok ((), context) := by
        rw [Context.attempt_mergeVector legible, accumulated]
        exact ⟨_, rfl⟩
      obtain ⟨known, entered⟩ := Context.entered_of_mergeVector legible merged
      refine ⟨{ outcome with applied := outcome.applied + 1 }, { applied with context := context },
        ⟨some vector, effect, known, progress.entered entered⟩, fun rest => ?_⟩
      simp only [applyChanges, attempt_bind, done, Except.ok_bind, attempt_onContext, merged,
        Except.map_ok]

/-- A slice gets past a change unless it lacks content. -/
theorem exists_step (payloads : Dictionary String Bytes)
    (ahead : workspace.Ahead holds ignored floor)
    (acceptable : change.Acceptable workspace.transaction.base.backend ignored holds) (outcome : SliceOutcome) :
    (∃ counted between, Step change payloads workspace between ∧
      ∀ rest, attempt (applyChanges payloads (change :: rest) outcome) workspace =
        attempt (applyChanges payloads rest counted) between) ∨
      ∃ hash documentId,
        change.LacksContent payloads ignored workspace.transaction hash documentId ∧
        ∀ rest, attempt (applyChanges payloads (change :: rest) outcome) workspace =
          .error (.missingAttachment hash documentId) := by
  obtain rfl := ahead.names
  have fits (vector : ChangeVector)
      (raises : change.Raises workspace.context.ignored workspace.transaction vector) :=
    acceptable.fits vector (ahead.readable.of_raises acceptable.carries raises)
  obtain ⟨written, applied, done⟩ | ⟨hash, documentId, lacks, failed⟩ :=
    Change.exists_apply payloads acceptable.allowed ahead.readable acceptable.legible fits
  · exact .inl (exists_step_of_apply ahead.canonical done outcome)
  · refine .inr ⟨hash, documentId, lacks, fun rest => ?_⟩
    simp only [applyChanges, attempt_bind, failed, Except.error_bind]

theorem attempt_applyChanges_append (early rest : List Change) :
    attempt (applyChanges payloads (early ++ rest) outcome) workspace =
      attempt (applyChanges payloads early outcome) workspace >>= fun (counted, between) =>
        attempt (applyChanges payloads rest counted) between := by
  induction early generalizing workspace outcome with
  | nil => rfl
  | cons change early ih =>
      simp only [List.cons_append, applyChanges, attempt_bind, bind_assoc]
      congr 1
      funext result
      obtain ⟨written, applied⟩ := result
      cases written with
      | none => exact ih
      | some vector =>
          simp only [attempt_bind, bind_assoc]
          congr 1
          funext merged
          exact ih

theorem attempt_applyChanges_of_lacks (ahead : workspace.Ahead holds ignored floor)
    (acceptable : change.Acceptable workspace.transaction.base.backend ignored holds)
    (lacks : change.LacksContent payloads ignored workspace.transaction hash documentId) :
    attempt (applyChanges payloads (change :: rest) outcome) workspace =
      .error (.missingAttachment hash documentId) := by
  obtain ⟨counted, between, step, -⟩ | ⟨otherHash, otherId, again, failed⟩ :=
    exists_step payloads ahead acceptable outcome
  · obtain ⟨written, applied, -⟩ := step
    exact absurd (ahead.names ▸ lacks) applied.not_lacksContent
  · obtain ⟨rfl, rfl⟩ := lacks.unique again
    exact failed rest

theorem exists_lacks_of_error (plain : ∀ entry, holds entry → entry.isTransactional = false)
    (ahead : workspace.Ahead holds ignored floor)
    (acceptable : ∀ change ∈ changes,
      change.Acceptable workspace.transaction.base.backend ignored holds)
    (failed : attempt (applyChanges payloads changes outcome) workspace = .error fault) :
    ∃ early change later counted between hash documentId, changes = early ++ change :: later ∧
      attempt (applyChanges payloads early outcome) workspace = .ok (counted, between) ∧
      change.LacksContent payloads ignored between.transaction hash documentId ∧
      fault = .missingAttachment hash documentId := by
  induction changes generalizing workspace outcome with
  | nil => cases failed
  | cons first rest ih =>
      have accepted := acceptable first List.mem_cons_self
      obtain ⟨counted, between, step, next⟩ | ⟨hash, documentId, lacks, stopped⟩ :=
        exists_step payloads ahead accepted outcome
      · obtain ⟨early, change, later, reached, left, hash, documentId, rfl, done, lacks, rfl⟩ :=
          ih (step.ahead plain accepted.carries ahead)
            (fun later member => step.base ▸ acceptable later (List.mem_cons_of_mem _ member))
            ((next rest).symm.trans failed)
        exact ⟨first :: early, change, later, reached, left, hash, documentId, rfl,
          (next early).trans done, lacks, rfl⟩
      · cases (stopped rest).symm.trans failed
        exact ⟨[], first, rest, outcome, workspace, hash, documentId, rfl, rfl, lacks, rfl⟩

/-- A run of changes stops at the first one that lacks content when its turn comes. -/
theorem applyChanges_eq_error_iff (plain : ∀ entry, holds entry → entry.isTransactional = false)
    (ahead : workspace.Ahead holds ignored floor)
    (acceptable : ∀ change ∈ changes,
      change.Acceptable workspace.transaction.base.backend ignored holds) :
    attempt (applyChanges payloads changes outcome) workspace = .error fault ↔
      ∃ early change later counted between hash documentId, changes = early ++ change :: later ∧
        attempt (applyChanges payloads early outcome) workspace = .ok (counted, between) ∧
        change.LacksContent payloads ignored between.transaction hash documentId ∧
        fault = .missingAttachment hash documentId := by
  constructor
  · exact exists_lacks_of_error plain ahead acceptable
  · intro stalls
    obtain ⟨early, change, later, counted, between, hash, documentId, rfl, done, lacks, rfl⟩ := stalls
    obtain ⟨aheadThere, base⟩ := applyChanges_ahead plain
      (fun other member => (acceptable other (List.mem_append_left _ member)).carries) ahead done
    have accepted := acceptable change (List.mem_append_right _ List.mem_cons_self)
    rw [attempt_applyChanges_append, done, Except.ok_bind]
    exact attempt_applyChanges_of_lacks aheadThere (base ▸ accepted) lacks

/-- Every change that a run gets past is counted once. -/
theorem applyChanges_counts
    (done : attempt (applyChanges payloads changes outcome) workspace = .ok (result, next)) :
    result.applied + result.skipped = outcome.applied + outcome.skipped + changes.length := by
  induction changes generalizing workspace outcome with
  | nil =>
      cases done
      rfl
  | cons change rest ih =>
      simp only [applyChanges, attempt_bind, Except.bind_eq_ok_iff] at done
      obtain ⟨⟨written, applied⟩, -, done⟩ := done
      cases written with
      | none =>
          rw [ih done, List.length_cons]
          dsimp only
          omega
      | some vector =>
          simp only [attempt_bind, Except.bind_eq_ok_iff] at done
          obtain ⟨merged, -, done⟩ := done
          rw [ih done, List.length_cons]
          dsimp only
          omega

end Slice

namespace Slice

variable {slice : Slice} {store : Partition} {outcome : SliceOutcome} {fault : Fault}
  {stored : Option ReplicationState} {previous : ChangeVector} {started applied : Workspace}

/-- What a slice does up to the turn of the change that follows some changes. -/
def upTo (slice : Slice) (early : List Change) : Command SliceOutcome := do
  let stored ← ofExcept (← get).transaction.readState
  let previous ← ofExcept (ChangeVector.parse (stored.getD .empty).changeVector)
  startFrom previous
  applyChanges slice.payloads early ⟨0, 0⟩

/-- A slice has started over a store, and its changes are next. -/
structure Starts (slice : Slice) (ignored : List String) (store : Partition)
    (stored : Option ReplicationState) (previous : ChangeVector) (started : Workspace) : Prop where
  read : store.begin.readState = .ok stored
  parsed : ChangeVector.parse (stored.getD .empty).changeVector = .ok previous
  start : attempt (startFrom previous) ⟨.ignoring ignored, store.begin⟩ = .ok ((), started)
  transaction : started.transaction = store.begin
  etags : started.context.etags = .empty
  skips : 0 < previous.countIn (Context.ignoring ignored).ignored →
    started.context.skipsValidation = true
  ahead : started.Ahead (slice.Offers store) (Context.ignoring ignored).ignored
    (previous.without (Context.ignoring ignored).ignored)

theorem exists_starts (reachable : store.Reachable) (slice : Slice) (ignored : List String) :
    ∃ stored previous started, slice.Starts ignored store stored previous started := by
  obtain ⟨stored, previous, read, parsed, all⟩ := reachable.persists_offers slice
  have legible := ChangeVector.legible_of_parse parsed
  have canonical := Context.canonical_ignoring ignored
  obtain ⟨started, start, skips⟩ :=
    exists_startFrom legible ⟨.ignoring ignored, store.begin⟩ canonical
  have transaction := (startFrom_cases legible start).1
  have etags : started.context.etags = .empty :=
    (startFrom_etags legible start).trans (Context.etags_ignoring ignored)
  have ahead := startFrom_ahead canonical (Context.vectorText_ignoring ignored) legible
    (fun entry offers => offers.2) all (reachable.readable_offers slice) start
  exact ⟨stored, previous, started, read, parsed, start, transaction, etags, skips, ahead⟩

theorem Starts.attempt_upTo (starts : slice.Starts ignored store stored previous started)
    (early : List Change) :
    attempt (slice.upTo early) ⟨.ignoring ignored, store.begin⟩ =
      attempt (applyChanges slice.payloads early ⟨0, 0⟩) started := by
  simp only [upTo, attempt_bind, attempt_get, Except.ok_bind, attempt_ofExcept, starts.read,
    Except.map_ok, starts.parsed, starts.start]

theorem FitsWith.acceptable (fits : slice.FitsWith store) (member : change ∈ slice.changes)
    (allowed : change.Allowed backend)
    (legible : ∃ vector, ChangeVector.parse change.header.changeVector = .ok vector)
    (ignored : List String) : change.Acceptable backend ignored (slice.Offers store) := by
  refine ⟨allowed, legible, carries_offers member store ignored, fun vector all => ?_⟩
  exact Change.exists_record? (fits.size_change_lt member) (fits.length_text_lt all)

/-- Once all changes were applied, nothing is left that may fail. -/
theorem Starts.finishes (starts : slice.Starts ignored store stored previous started)
    (fits : slice.FitsWith store)
    (apply : attempt (applyChanges slice.payloads slice.changes ⟨0, 0⟩) started =
      .ok (outcome, applied)) :
    ∃ after, attempt slice.execute ⟨.ignoring ignored, store.begin⟩ = .ok (outcome, after) := by
  have ahead := (applyChanges_ahead (fun entry offers => offers.2)
    (fun change member => carries_offers member store _) starts.ahead apply).1
  obtain ⟨text, persisted⟩ := exists_persisted starts.skips apply ahead
  have short : ∀ written, text = some written → (Text.utf8 written).length < UInt64.size := by
    rintro written rfl
    exact fits.length_vectorText_lt ahead (nextVector_eq_some persisted)
  have etags : applied.context.etags = .empty := (applyChanges_etags apply).trans starts.etags
  obtain ⟨record, encoded⟩ := fits.exists_octets starts.read etags short
  obtain ⟨transaction, put⟩ := Transaction.exists_put
    applied.transaction.base.backend.checkKey_stateKey .state record
  refine ⟨⟨applied.context.recordEtag slice.source slice.lastEtag, transaction⟩,
    attempt_execute_iff.mpr ⟨stored, previous, started, applied, text, record, ?_⟩⟩
  exact ⟨starts.read, starts.parsed, starts.start, apply, persisted, encoded, put, rfl⟩

theorem Starts.attempt_execute_eq_error_iff
    (starts : slice.Starts ignored store stored previous started) (fits : slice.FitsWith store) :
    attempt slice.execute ⟨.ignoring ignored, store.begin⟩ = .error fault ↔
      attempt (applyChanges slice.payloads slice.changes ⟨0, 0⟩) started = .error fault := by
  cases apply : attempt (applyChanges slice.payloads slice.changes ⟨0, 0⟩) started with
  | error other =>
      simp only [execute, attempt_bind, attempt_get, Except.ok_bind, attempt_ofExcept, starts.read,
        Except.map_ok, starts.parsed, starts.start, apply, Except.error_bind]
  | ok result =>
      obtain ⟨after, finished⟩ := starts.finishes fits apply
      simp only [finished, reduceCtorEq]

/-- What a slice has made of the transaction when some changes are behind it. -/
def Turn (slice : Slice) (ignored : List String) (store : Partition) (early : List Change)
    (work : Transaction) : Prop :=
  ∃ outcome workspace, attempt (slice.upTo early) ⟨.ignoring ignored, store.begin⟩ =
    .ok (outcome, workspace) ∧ workspace.transaction = work

/-- A slice comes to an attachment that lacks content. -/
def Stalls (slice : Slice) (ignored : List String) (store : Partition) (fault : Fault) : Prop :=
  ∃ early change later work hash documentId,
    slice.changes = early ++ change :: later ∧ slice.Turn ignored store early work ∧
    change.LacksContent slice.payloads ignored work hash documentId ∧
    fault = .missingAttachment hash documentId

theorem Starts.fails_iff_stalls (starts : slice.Starts ignored store stored previous started)
    (allowed : ∀ change ∈ slice.changes, change.Allowed store.backend)
    (legible : ∀ change ∈ slice.changes,
      ∃ vector, ChangeVector.parse change.header.changeVector = .ok vector)
    (fits : slice.FitsWith store) :
    attempt slice.execute ⟨.ignoring ignored, store.begin⟩ = .error fault ↔
      slice.Stalls ignored store fault := by
  have acceptable : ∀ change ∈ slice.changes, change.Acceptable
      started.transaction.base.backend (Context.ignoring ignored).ignored (slice.Offers store) := by
    rw [starts.transaction]
    exact fun change member =>
      fits.acceptable member (allowed change member) (legible change member) _
  rw [starts.attempt_execute_eq_error_iff fits,
    applyChanges_eq_error_iff (fun entry offers => offers.2) starts.ahead acceptable]
  constructor
  · intro failed
    obtain ⟨early, change, later, counted, between, hash, documentId, split, done, lacks, same⟩ :=
      failed
    exact ⟨early, change, later, between.transaction, hash, documentId, split,
      ⟨counted, between, (starts.attempt_upTo early).trans done, rfl⟩,
      Change.lacksContent_ignoring.mp lacks, same⟩
  · intro stalls
    obtain ⟨early, change, later, -, hash, documentId, split, ⟨counted, between, done, rfl⟩, lacks,
      same⟩ := stalls
    exact ⟨early, change, later, counted, between, hash, documentId, split,
      (starts.attempt_upTo early).symm.trans done, Change.lacksContent_ignoring.mpr lacks, same⟩

end Slice

namespace Partition

variable {store : Partition} {slice : Slice}

theorem transact_eq_error_iff_stalls (reachable : store.Reachable)
    (allowed : ∀ change ∈ slice.changes, change.Allowed store.backend)
    (legible : ∀ change ∈ slice.changes,
      ∃ vector, ChangeVector.parse change.header.changeVector = .ok vector)
    (fits : slice.FitsWith store) (ignored : List String) (fault : Fault) :
    Scheduler.transact ignored slice.execute store = .error fault ↔
      slice.Stalls ignored store fault := by
  obtain ⟨stored, previous, started, starts⟩ := Slice.exists_starts reachable slice ignored
  rw [Scheduler.transact_eq, Except.map_eq_error_iff]
  exact starts.fails_iff_stalls allowed legible fits

/-- Over a store in memory a slice fails if and only if it comes to an attachment that lacks content,
and for no other reason; otherwise each of its changes is applied or skipped. In particular no slice
is refused for what the persisted vector would lose. -/
theorem transact_fails_iff_stalls (reachable : store.Reachable) (memory : store.backend = .memory)
    (legible : ∀ change ∈ slice.changes,
      ∃ vector, ChangeVector.parse change.header.changeVector = .ok vector)
    (fits : slice.FitsWith store) (ignored : List String) :
    (∀ fault, Scheduler.transact ignored slice.execute store = .error fault ↔
      slice.Stalls ignored store fault) ∧
    ((∀ fault, ¬ slice.Stalls ignored store fault) →
      ∃ outcome next, Scheduler.transact ignored slice.execute store = .ok (outcome, next) ∧
        outcome.applied + outcome.skipped = slice.changes.length) ∧
    ∀ current previous, Scheduler.transact ignored slice.execute store ≠
      .error (.internal (.vectorWouldLose current previous)) := by
  have fails := transact_eq_error_iff_stalls reachable
    (fun change _ => Change.allowed_of_memory memory) legible fits ignored
  refine ⟨fails, fun free => ?_, fun current previous lost => ?_⟩
  · cases done : Scheduler.transact ignored slice.execute store with
    | error fault => exact absurd ((fails fault).mp done) (free fault)
    | ok result =>
        obtain ⟨outcome, next⟩ := result
        refine ⟨outcome, next, rfl, ?_⟩
        obtain ⟨workspace, ran, -⟩ := Scheduler.transact_eq_ok_iff.mp done
        obtain ⟨_, _, _, _, _, _, executed⟩ := Slice.attempt_execute_iff.mp ran
        simpa using Slice.applyChanges_counts executed.apply
  · obtain ⟨_, _, _, _, _, _, -, -, -, same⟩ := (fails _).mp lost
    contradiction

/-- A photo that comes with its content. -/
def photoOfUser : Slice := ⟨"north", 2, [
  .payload "jpeg" [7, 7],
  .change ⟨⟨"RV:1-A", 1, .epoch, 0⟩, .document "users/1" "users" [1]⟩,
  .change ⟨⟨"RV:2-A, RV:5-X", 2, .epoch, 0⟩, .attachment "users/1" "photo" "image/jpeg" "jpeg"⟩]⟩

/-- Attachments that come without content: one is known, the content of another one is stored, and
two are missing. -/
def coversOfUsers : Slice := ⟨"south", 9, [
  .change ⟨⟨"RV:1-A", 6, .epoch, 0⟩, .attachment "users/1" "photo" "image/png" "png"⟩,
  .change ⟨⟨"RV:7-B", 7, .epoch, 0⟩, .attachment "users/1" "icon" "image/jpeg" "jpeg"⟩,
  .change ⟨⟨"RV:8-B", 8, .epoch, 0⟩, .attachment "users/1" "cover" "image/png" "png"⟩,
  .change ⟨⟨"RV:9-B", 9, .epoch, 0⟩, .attachment "users/2" "cover" "image/gif" "gif"⟩]⟩

theorem transact_fails_iff_stalls_coversOfUsers :
    ∃ outcome store,
      Scheduler.transact ["X"] photoOfUser.execute (.create .memory) = .ok (outcome, store) ∧
      Scheduler.transact ["A"] coversOfUsers.execute store =
        .error (.missingAttachment "png" "users/1") ∧
      (∀ fault, Scheduler.transact ["A"] coversOfUsers.execute store = .error fault ↔
        coversOfUsers.Stalls ["A"] store fault) ∧
      ((∀ fault, ¬ coversOfUsers.Stalls ["A"] store fault) →
        ∃ outcome next, Scheduler.transact ["A"] coversOfUsers.execute store = .ok (outcome, next) ∧
          outcome.applied + outcome.skipped = coversOfUsers.changes.length) ∧
      ∀ current previous, Scheduler.transact ["A"] coversOfUsers.execute store ≠
        .error (.internal (.vectorWouldLose current previous)) := by
  have checked : (do
      let (_, store) ← Scheduler.transact ["X"] photoOfUser.execute (.create .memory)
      return (store.backend, decide (coversOfUsers.FitsWith store),
        (Scheduler.transact ["A"] coversOfUsers.execute store).map (·.1))) =
      Except.ok (Backend.memory, true, .error (.missingAttachment "png" "users/1")) := by
    decide +kernel
  obtain ⟨⟨outcome, store⟩, committed, checked⟩ := Except.bind_eq_ok_iff.mp checked
  simp only [Except.pure_eq_ok, Except.ok.injEq, Prod.mk.injEq, decide_eq_true_eq,
    Except.map_eq_error_iff] at checked
  obtain ⟨memory, fits, failed⟩ := checked
  have legible : ∀ change ∈ coversOfUsers.changes,
      ∃ vector, ChangeVector.parse change.header.changeVector = .ok vector := by
    have parsed : coversOfUsers.changes.all fun change =>
        (ChangeVector.parse change.header.changeVector).isOk = true := by decide +kernel
    intro change member
    have ok := List.all_eq_true.mp parsed change member
    cases found : ChangeVector.parse change.header.changeVector with
    | ok vector => exact ⟨vector, rfl⟩
    | error fault =>
        rw [found] at ok
        contradiction
  exact ⟨outcome, store, committed, failed, transact_fails_iff_stalls
    (.committed (.created .memory) committed) memory legible fits ["A"]⟩

end Partition

end DocumentReplication
