import DocumentReplication.Proofs.ChangeVector.Join
import DocumentReplication.Proofs.Commit.Causality
import DocumentReplication.Proofs.Commit.Log

/-!
What a slice adds to the database change vector. The vector that is persisted is the join of the one
before and of all that the changes of the slice bring, also those that are skipped: what is stored
knows them already. The tombstone of a revision that was noted before is the exception. It is skipped
for the revision alone, so what its vector brings is lost.
-/

namespace DocumentReplication

open Work

variable {ignored : List String} {payloads : Dictionary String Bytes} {change : Change}
  {work : Transaction} {before after : Workspace} {entry : LogEntry} {log : List LogEntry}
  {current known vector incoming part : ChangeVector} {among : ChangeVector → Prop}

namespace Change

/-- The vector of a change, as far as it may be stored. -/
def Brings (change : Change) (ignored : List String) (vector : ChangeVector) : Prop :=
  ∃ dropped, change.incoming ignored = .ok (vector, dropped)

theorem brings_ignoring :
    change.Brings (Context.ignoring ignored).ignored vector ↔ change.Brings ignored vector := by
  simp only [Brings, incoming_ignoring]

theorem brings_iff {dropped : Bool} (read : change.incoming ignored = .ok (incoming, dropped)) :
    change.Brings ignored vector ↔ vector = incoming := by
  constructor
  · rintro ⟨again, same⟩
    cases read.symm.trans same
    rfl
  · rintro rfl
    exact ⟨dropped, read⟩

end Change

/-- What is known of all records is known of the one that a change meets. -/
theorem Transaction.Summarized.homeVector {home : Table} {key text : String}
    (summarized : work.Summarized ignored known) (versioned : .state ∉ Change.tablesOf home)
    (found : work.homeVector home key = .ok (some text))
    (parsed : ChangeVector.parse text = .ok vector) : known.covers vector = true := by
  obtain ⟨table, member, bytes, record, got, decoded, rfl⟩ := Transaction.homeVector_eq_some found
  obtain ⟨entry, there, rfl⟩ := Option.map_eq_some_iff.mp (get_eq_ok_iff.mp got).2
  have records : table ≠ .state := by
    rintro rfl
    exact versioned member
  obtain ⟨twin, read, twinDecoded, twinParsed, -, covers⟩ := summarized _ entry there records
  obtain rfl : record = twin := Except.ok.inj (decoded.symm.trans twinDecoded)
  obtain rfl : vector = read := Except.ok.inj (parsed.symm.trans twinParsed)
  exact covers

namespace Change

theorem Known.covered_by (known : change.Known ignored work) (compared : change.kind ≠ .revisionTombstone)
    (summarized : work.Summarized ignored current) (brings : change.Brings ignored vector) :
    current.covers vector = true := by
  cases known with
  | noted revision => exact absurd revision compared
  | covered _ read found parsed covers =>
      obtain rfl := (brings_iff read).mp brings
      have above := summarized.homeVector change.state_not_mem found parsed
      exact ChangeVector.covers_trans above
        (ChangeVector.covers_trans (ChangeVector.covers_without ..) covers)

theorem Settles.covers (settles : change.Settles ignored work incoming vector) :
    vector.covers incoming = true := by
  cases settles with
  | alone => exact ChangeVector.covers_refl _
  | met compared found parsed settled => exact (ChangeVector.settle_covers settled).1

/-- A change is written with nothing that is neither known nor brought by the change. -/
theorem Settles.covered_by (settles : change.Settles ignored work incoming vector)
    (summarized : work.Summarized ignored current) :
    (current.merge incoming).covers vector = true := by
  have fresh := ChangeVector.covers_merge_right current incoming
  cases settles with
  | alone => exact fresh
  | met compared found parsed settled =>
      have above := summarized.homeVector change.state_not_mem found parsed
      refine ChangeVector.covers_settled settled fresh ?_
      exact ChangeVector.covers_trans (ChangeVector.covers_merge_left current incoming)
        (ChangeVector.covers_trans above (ChangeVector.covers_without ..))

end Change

namespace LogEntry

/-- A change whose vector is looked at; the tombstone of a revision that was noted before is not. -/
def Counts (entry : LogEntry) : Prop :=
  entry.change.kind = .revisionTombstone → entry.written ≠ none

theorem counts_of_written (written : entry.written = some vector) : entry.Counts := by
  intro _
  rw [written]
  exact Option.some_ne_none vector

/-- From one change to the next the accumulated vector stays the join of all that came in. -/
theorem Tells.joins (tells : entry.Tells payloads before after) (causal : before.Causal ignored)
    (accumulated : before.context.accumulated = .ok current) (join : current.IsJoin among) :
    ∃ next, after.context.accumulated = .ok next ∧
      next.IsJoin fun part => among part ∨ entry.Counts ∧ entry.change.Brings ignored part := by
  obtain ⟨found, again, summarized⟩ := causal.summarized
  obtain rfl : current = found := Except.ok.inj (accumulated.symm.trans again)
  have storable := causal.canonical.storable accumulated
  have names := causal.names
  obtain ⟨change, written, met, left⟩ := entry
  obtain ⟨beforeContext, beforeWork⟩ := before
  obtain ⟨afterContext, afterWork⟩ := after
  obtain ⟨-, -, applied, follows, -⟩ := tells
  simp only at names applied follows storable summarized accumulated ⊢
  rw [names] at applied storable
  cases applied with
  | known known =>
      refine ⟨current, follows.accumulated.trans accumulated, join.known fun part => ?_⟩
      rintro ⟨counts, brings⟩
      exact known.covered_by (fun revision => counts revision rfl) summarized brings
  | written raises provides writes =>
      obtain ⟨found, entered⟩ := follows
      obtain rfl : found = current := Except.ok.inj (entered.found.symm.trans accumulated)
      obtain ⟨incoming, dropped, read, settles⟩ := raises.settles
      have plain := summarized.stripped.vector_of_raises raises
      rw [← names] at storable plain
      refine ⟨_, entered.accumulated, ?_⟩
      rw [Context.enter_of_storable storable plain]
      -- Whether the change was written as it is or merged, the join of all is the same.
      have first := ChangeVector.covers_merge_left found incoming
      refine ((join.merge (ChangeVector.isJoin_self incoming)).of_covers
        (ChangeVector.covers_merge (ChangeVector.covers_merge_left ..)
          (ChangeVector.covers_trans (ChangeVector.covers_merge_right ..) settles.covers))
        (ChangeVector.covers_merge first (settles.covered_by summarized))).congr fun part => ?_
      rw [Change.brings_iff read]
      exact or_congr_right (and_iff_right (counts_of_written rfl)).symm

end LogEntry

namespace Slice

variable {slice : Slice} {outcome : SliceOutcome} {previous : ChangeVector}

theorem logChanges_joins {changes : List Change}
    (done : attempt (logChanges payloads changes) before = .ok (log, after))
    (causal : before.Causal ignored) (accumulated : before.context.accumulated = .ok current)
    (join : current.IsJoin among) :
    ∃ next, after.context.accumulated = .ok next ∧ next.IsJoin fun part =>
      among part ∨ ∃ entry ∈ log, entry.Counts ∧ entry.change.Brings ignored part := by
  induction changes generalizing before log current among with
  | nil =>
      cases done
      exact ⟨current, accumulated, join.congr fun part => by simp⟩
  | cons change rest ih =>
      obtain ⟨entry, between, others, rfl, rfl, tells, more⟩ := logChanges_cons done
      obtain ⟨next, reached, joined⟩ := tells.joins causal accumulated join
      obtain ⟨final, persisted, whole⟩ := ih more (tells.step.causal causal) reached joined
      refine ⟨final, persisted, whole.congr fun part => ?_⟩
      rw [or_assoc, List.exists_mem_cons_iff]

/-- A context that knows nothing yet starts from the vector that is persisted. -/
theorem startFrom_accumulates (nothing : before.context.accumulated = .ok .empty)
    (storable : previous.Storable before.context.ignored) (legible : previous.Legible)
    (done : attempt (startFrom previous) before = .ok ((), after)) :
    after.context.accumulated = .ok previous := by
  obtain ⟨-, ⟨rfl, rfl⟩ | ⟨current, entered⟩⟩ := startFrom_cases legible done
  · exact nothing
  · obtain rfl : current = .empty := Except.ok.inj (entered.found.symm.trans nothing)
    rw [entered.accumulated, storable.without,
      Context.enter_of_storable (ChangeVector.storable_empty _) storable, ChangeVector.empty_merge]

end Slice

namespace Partition

variable {backend : Backend} {store next : Partition} {slice : Slice} {outcome : SliceOutcome}

/-- The database change vector that is persisted, empty before the first slice. -/
def databaseVector (store : Partition) : Except Fault ChangeVector := do
  ChangeVector.parse ((← store.readState).getD .empty).changeVector

theorem Runs.causal (history : (create backend).Runs (fun _ => True) ignored store) :
    store.begin.Causal (Context.ignoring ignored).ignored := by
  induction history with
  | refl => exact Transaction.causal_create backend _
  | step _ _ done ih => exact causal_transact done ih

/-- The database change vector that a slice leaves is the join of the one before and of what all its
changes bring, applied or skipped, the tombstones of revisions that were noted before apart. -/
theorem databaseVector_joins (history : (create backend).Runs (fun _ => True) ignored store)
    (done : Scheduler.transact ignored slice.execute store = .ok (outcome, next)) :
    ∃ previous current log, store.databaseVector = .ok previous ∧
      next.databaseVector = .ok current ∧
      Scheduler.transact ignored slice.logged store = .ok (log, next) ∧
      log.map (·.change) = slice.changes ∧
      current.IsJoin fun part =>
        part = previous ∨ ∃ entry ∈ log, entry.Counts ∧ entry.change.Brings ignored part := by
  have causal := history.causal
  obtain ⟨workspace, ran, rfl⟩ := Scheduler.transact_eq_ok_iff.mp done
  rw [Slice.attempt_execute, Except.map_eq_ok_iff] at ran
  obtain ⟨⟨log, finished⟩, logged, same⟩ := ran
  cases same
  obtain ⟨_, stored, previous, started, applied, text, record, executed, apply⟩ :=
    Slice.exists_executed logged
  have begun := Slice.startFrom_causal causal (Context.canonical_ignoring ignored) executed.read
    executed.parsed executed.start
  obtain ⟨found, persisted, read, parsed, storable, -⟩ := causal
  obtain rfl : stored = found := Except.ok.inj (executed.read.symm.trans read)
  obtain rfl : previous = persisted := Except.ok.inj (executed.parsed.symm.trans parsed)
  have nothing : (Context.ignoring ignored).accumulated = .ok .empty := by
    rw [Context.accumulated, Context.vectorText_ignoring]
  have accumulated := Slice.startFrom_accumulates nothing storable executed.legible executed.start
  obtain ⟨current, reached, join⟩ :=
    Slice.logChanges_joins apply begun accumulated (ChangeVector.isJoin_self previous)
  obtain ⟨vector, carries⟩ := executed.carries (Context.canonical_ignoring ignored)
  -- What is persisted is what the context accumulated.
  obtain rfl : vector = current := by
    have kept := carries.accumulated
    rw [executed.context] at kept
    exact Except.ok.inj (kept.symm.trans reached)
  have left : workspace.transaction.commit.readState = _ :=
    workspace.transaction.sameView_begin_commit.readState.trans executed.readState
  refine ⟨previous, vector, log, ?_, ?_, ?_, Slice.changes_of_logChanges apply, ?_⟩
  · rw [databaseVector]
    exact (congrArg (· >>= _) read).trans parsed
  · rw [databaseVector, left]
    exact carries.settled.parsed
  · exact Scheduler.transact_eq_ok_iff.mpr ⟨workspace, logged, rfl⟩
  · simpa only [Change.brings_ignoring] using join

/-- A document as it was before, a counter that is new, and a revision that was noted already. -/
def lateArrivals : Slice := ⟨"south", 9, [
  .change ⟨⟨"RV:2-A, RV:9-X", 2, .epoch, 0⟩, .document "users/1" "users" [1]⟩,
  .change ⟨⟨"RV:6-B, TRXN:1-T", 6, .epoch, 0⟩, .counter "users/1" "likes" [4]⟩,
  .change ⟨⟨"RV:9-C", 9, .epoch, 0⟩, .revisionTombstone "RV:1-A" "users"⟩]⟩

theorem databaseVector_joins_lateArrivals :
    ∃ outcomes store outcome next,
      Scheduler.transact ["X"] (Scheduler.runAll (concurrentSources.map Slice.execute))
        (.create .mapped) = .ok (outcomes, store) ∧
      Scheduler.transact ["X"] lateArrivals.execute store = .ok (outcome, next) ∧
      outcome = ⟨1, 2⟩ ∧
      ∃ previous current log, store.databaseVector = .ok previous ∧
        next.databaseVector = .ok current ∧
        Scheduler.transact ["X"] lateArrivals.logged store = .ok (log, next) ∧
        log.map (·.change) = lateArrivals.changes ∧
        current.IsJoin fun part =>
          part = previous ∨ ∃ entry ∈ log, entry.Counts ∧ entry.change.Brings ["X"] part := by
  have counted : (do
      let (_, store) ← Scheduler.transact ["X"]
        (Scheduler.runAll (concurrentSources.map Slice.execute)) (.create .mapped)
      let (outcome, _) ← Scheduler.transact ["X"] lateArrivals.execute store
      return outcome) = Except.ok (SliceOutcome.mk 1 2) := by decide +kernel
  obtain ⟨⟨outcomes, store⟩, committed, counted⟩ := Except.bind_eq_ok_iff.mp counted
  obtain ⟨⟨outcome, next⟩, done, counted⟩ := Except.bind_eq_ok_iff.mp counted
  exact ⟨outcomes, store, outcome, next, committed, done, Except.ok.inj counted,
    databaseVector_joins (.step (.refl (.create .mapped)) (fun _ _ => trivial) committed) done⟩

def revisionNoted : Slice :=
  ⟨"north", 7, [.change ⟨⟨"RV:7-A", 7, .epoch, 0⟩, .revisionTombstone "RV:1-A" "users"⟩]⟩

def revisionNotedAgain : Slice :=
  ⟨"south", 4, [.change ⟨⟨"RV:4-B", 4, .epoch, 0⟩, .revisionTombstone "RV:1-A" "users"⟩]⟩

/-- What the second tombstone of a revision brings never gets into the database change vector. -/
theorem databaseVector_misses_revision :
    ¬ ∀ (backend : Backend) (ignored : List String) (store next : Partition) (slice : Slice)
      (outcome : SliceOutcome), (create backend).Runs (fun _ => True) ignored store →
      Scheduler.transact ignored slice.execute store = .ok (outcome, next) →
      ∃ previous current, store.databaseVector = .ok previous ∧
        next.databaseVector = .ok current ∧
        current.IsJoin fun part =>
          part = previous ∨ ∃ change ∈ slice.changes, change.Brings ignored part := by
  intro joins
  have persisted : (do
      let (_, store) ← Scheduler.transact []
        (Scheduler.runAll ([revisionNoted].map Slice.execute)) (.create .memory)
      let (_, next) ← Scheduler.transact [] revisionNotedAgain.execute store
      next.databaseVector) = ChangeVector.parse "RV:7-A" := by decide +kernel
  obtain ⟨vector, parsed, unknown⟩ : ∃ vector, ChangeVector.parse "RV:7-A" = .ok vector ∧
      vector.etagFor "B" = none := ⟨_, rfl, rfl⟩
  obtain ⟨change, member, brought, brings, known⟩ : ∃ change ∈ revisionNotedAgain.changes,
      ∃ brought, change.Brings [] brought ∧ brought.etagFor "B" = some 4 :=
    ⟨_, List.mem_singleton_self _, _, ⟨_, rfl⟩, rfl⟩
  rw [parsed] at persisted
  obtain ⟨⟨outcomes, store⟩, committed, persisted⟩ := Except.bind_eq_ok_iff.mp persisted
  obtain ⟨⟨outcome, next⟩, done, persisted⟩ := Except.bind_eq_ok_iff.mp persisted
  obtain ⟨previous, current, -, left, join⟩ := joins .memory [] store next revisionNotedAgain outcome
    (.step (.refl (.create .memory)) (fun _ _ => trivial) committed) done
  cases persisted.symm.trans left
  obtain ⟨etag, found, -⟩ := ChangeVector.covers_iff.mp
    (join.covers brought (.inr ⟨change, member, brings⟩)) "B" 4 known
  rw [unknown] at found
  contradiction

end Partition

end DocumentReplication
