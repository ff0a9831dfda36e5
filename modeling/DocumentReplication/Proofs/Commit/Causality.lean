import DocumentReplication.Proofs.Commit.Settled
import DocumentReplication.Proofs.Commit.Stripped
import DocumentReplication.Proofs.Commit.Retention

/-!
What a store knows. The database change vector of a store covers the vector of every record in it,
and neither it nor any of these has entries that may not be stored. A vector that a change is written
with enters the accumulated vector at once, so this holds between any two changes of a slice, with
the accumulated vector in place of the one that is persisted.
-/

namespace DocumentReplication

open Work

variable {ignored : List String} {work middle : Transaction} {known vector : ChangeVector}
  {payloads : Dictionary String Bytes} {change : Change}

namespace Context

variable {context : Context} {current : ChangeVector}

theorem Canonical.storable (canonical : context.Canonical)
    (found : context.accumulated = .ok current) : current.Storable context.ignored := by
  unfold accumulated at found
  split at found
  · rename_i text kept
    obtain ⟨stored, rfl, legible, storable⟩ := canonical text kept
    rw [ChangeVector.parse_text legible] at found
    cases found
    exact storable
  · cases found
    exact ChangeVector.storable_empty _

theorem Canonical.exists_accumulated (canonical : context.Canonical) :
    ∃ current, context.accumulated = .ok current := by
  unfold accumulated
  split
  · rename_i text kept
    obtain ⟨stored, rfl, legible, -⟩ := canonical text kept
    exact ⟨stored, ChangeVector.parse_text legible⟩
  · exact ⟨.empty, rfl⟩

/-- Nothing is lost of a vector that may be stored when it enters a canonical context. -/
theorem enter_of_storable (first : current.Storable context.ignored)
    (second : vector.Storable context.ignored) :
    context.enter current vector = current.merge vector := by
  have merged := first.merge second
  rw [enter, merged.withoutTransactional, merged.without]

end Context

theorem ChangeVector.Storable.of_ignoring
    (storable : vector.Storable (Context.ignoring ignored).ignored) : vector.Storable ignored := by
  intro entry member
  obtain ⟨plain, outside⟩ := storable entry member
  refine ⟨plain, fun inside => outside ?_⟩
  exact Context.mem_ignored_ignoreAll.mpr (.inl inside)

/-- Every record can be read, has a vector that may be stored, and a known vector covers it. -/
def Transaction.Summarized (work : Transaction) (ignored : List String) (known : ChangeVector) :
    Prop :=
  ∀ address entry, work.lookup? address = some entry → address.1 ≠ .state →
    ∃ record vector, address.1.decode entry.value = .ok record ∧
      ChangeVector.parse (address.1.vectorOf record) = .ok vector ∧
      vector.Storable ignored ∧ known.covers vector = true

namespace Transaction.Summarized

theorem widen {wider : ChangeVector} (summarized : work.Summarized ignored known)
    (covers : wider.covers known = true) : work.Summarized ignored wider := by
  intro address entry found records
  obtain ⟨record, vector, decoded, parsed, storable, below⟩ := summarized address entry found records
  exact ⟨record, vector, decoded, parsed, storable, ChangeVector.covers_trans covers below⟩

theorem of_lookup (summarized : work.Summarized ignored known)
    (same : ∀ address : Table × String, address.1 ≠ .state →
      middle.lookup? address = work.lookup? address) : middle.Summarized ignored known := by
  intro address entry found records
  rw [same address records] at found
  exact summarized address entry found records

theorem stripped (summarized : work.Summarized ignored known) : work.Stripped := by
  intro address entry found records record decoded vector parsed
  obtain ⟨twin, read, twinDecoded, twinParsed, storable, -⟩ :=
    summarized address entry found records
  obtain rfl : twin = record := Except.ok.inj (twinDecoded.symm.trans decoded)
  obtain rfl : read = vector := Except.ok.inj (twinParsed.symm.trans parsed)
  exact storable.withoutTransactional

/-- A change that is written adds one record, with the vector it is written with; contents have no
vector. -/
theorem written {before after : Transaction} (summarized : before.Summarized ignored known)
    (raises : change.Raises ignored before vector)
    (provides : change.Provides payloads before middle)
    (writes : change.Writes vector.text middle after) :
    after.Summarized ignored (known.merge vector) := by
  intro address entry found records
  rcases writes.lookup_cases found with earlier | ⟨made, -, rfl⟩
  · rcases provides.lookup_cases earlier with old | ⟨content, -, -, rfl⟩
    · exact summarized.widen (ChangeVector.covers_merge_left known vector) address entry old records
    · refine ⟨entry.value, .empty, rfl, rfl, ChangeVector.storable_empty ignored, ?_⟩
      exact ChangeVector.covers_iff.mpr nofun
  · obtain ⟨record, decoded, same⟩ := Change.decode_record? made
    have parsed : ChangeVector.parse (change.table.vectorOf record) = .ok vector := by
      rw [same]
      exact ChangeVector.parse_text raises.legible
    exact ⟨record, vector, decoded, parsed, summarized.stripped.vector_of_raises raises,
      ChangeVector.covers_merge_right known vector⟩

end Transaction.Summarized

/-- Between slices it is the persisted vector that covers all records. -/
def Transaction.Causal (ignored : List String) (work : Transaction) : Prop :=
  ∃ stored known, work.readState = .ok stored ∧
    ChangeVector.parse (stored.getD .empty).changeVector = .ok known ∧
    known.Storable ignored ∧ work.Summarized ignored known

/-- While a slice runs it is the accumulated vector that covers all records. -/
structure Workspace.Causal (ignored : List String) (workspace : Workspace) : Prop where
  names : workspace.context.ignored = ignored
  canonical : workspace.context.Canonical
  summarized : ∃ current, workspace.context.accumulated = .ok current ∧
    workspace.transaction.Summarized ignored current

namespace Slice

variable {slice : Slice} {before after started : Workspace} {outcome : SliceOutcome}

theorem Step.causal (step : Step change payloads before after) (causal : before.Causal ignored) :
    after.Causal ignored := by
  refine ⟨step.ignored.trans causal.names, step.canonical causal.canonical, ?_⟩
  obtain ⟨current, accumulated, summarized⟩ := causal.summarized
  have storable := causal.canonical.storable accumulated
  have names := causal.names
  obtain ⟨written, applied, follows⟩ := step
  obtain ⟨beforeContext, beforeWork⟩ := before
  obtain ⟨afterContext, afterWork⟩ := after
  simp only at names applied follows storable summarized accumulated ⊢
  rw [names] at applied storable
  cases applied with
  | known => exact ⟨current, follows.accumulated.trans accumulated, summarized⟩
  | written raises provides writes =>
      obtain ⟨found, entered⟩ := follows
      obtain rfl : found = current := Except.ok.inj (entered.found.symm.trans accumulated)
      have plain := summarized.stripped.vector_of_raises raises
      rw [← names] at storable plain
      refine ⟨_, entered.accumulated, ?_⟩
      rw [Context.enter_of_storable storable plain]
      exact summarized.written raises provides writes

theorem startFrom_causal (causal : before.transaction.Causal before.context.ignored)
    (canonical : before.context.Canonical) {stored : Option ReplicationState}
    {previous : ChangeVector} (read : before.transaction.readState = .ok stored)
    (parsed : ChangeVector.parse (stored.getD .empty).changeVector = .ok previous)
    (done : attempt (startFrom previous) before = .ok ((), started)) :
    started.Causal before.context.ignored := by
  obtain ⟨found, known, readFound, parsedFound, storable, summarized⟩ := causal
  obtain rfl : stored = found := Except.ok.inj (read.symm.trans readFound)
  obtain rfl : previous = known := Except.ok.inj (parsed.symm.trans parsedFound)
  obtain ⟨same, ⟨rfl, rfl⟩ | ⟨current, entered⟩⟩ :=
    startFrom_cases (ChangeVector.legible_of_parse parsed) done
  · -- Nothing is persisted, so no record has a vector with any entries.
    obtain ⟨current, accumulated⟩ := canonical.exists_accumulated
    exact ⟨rfl, canonical, current, accumulated,
      summarized.widen (ChangeVector.covers_iff.mpr nofun)⟩
  · refine ⟨entered.ignored, entered.canonical, _, entered.accumulated, ?_⟩
    rw [storable.without, Context.enter_of_storable (canonical.storable entered.found) storable,
      same]
    exact summarized.widen (ChangeVector.covers_merge_right current previous)

theorem Executed.causal {stored : Option ReplicationState} {previous : ChangeVector}
    {started applied : Workspace} {text : Option String} {record : Bytes}
    (executed : slice.Executed before after outcome stored previous started applied text record)
    (canonical : before.context.Canonical)
    (causal : before.transaction.Causal before.context.ignored) :
    after.transaction.Causal before.context.ignored := by
  have begun := startFrom_causal causal canonical executed.read executed.parsed executed.start
  have finished : applied.Causal before.context.ignored :=
    applyChanges_invariant (Workspace.Causal before.context.ignored) executed.apply
      (fun _ _ _ _ step => step.causal) begun
  obtain ⟨names, -, current, accumulated, summarized⟩ := finished
  obtain ⟨vector, carries⟩ := executed.carries canonical
  have kept : after.context.accumulated = applied.context.accumulated := by
    rw [executed.context]
    rfl
  have ignores : after.context.ignored = before.context.ignored := by
    rw [executed.context]
    exact names
  -- What is persisted is what the context accumulated.
  obtain rfl : vector = current :=
    Except.ok.inj (carries.accumulated.symm.trans (kept.trans accumulated))
  refine ⟨_, vector, executed.readState, carries.settled.parsed, ?_, ?_⟩
  · rw [← ignores]
    exact carries.settled.storable
  · apply summarized.of_lookup
    intro address records
    rw [Transaction.lookup?_put executed.put, if_neg]
    intro same
    exact records (congrArg Prod.fst same).symm

end Slice

theorem Transaction.causal_create (backend : Backend) (ignored : List String) :
    (Partition.create backend).begin.Causal ignored := by
  refine ⟨none, .empty, ?_, rfl, ChangeVector.storable_empty ignored, ?_⟩
  · cases backend <;> rfl
  · intro address entry found
    cases found

theorem Transaction.Causal.sameView {first last : Transaction} (causal : first.Causal ignored)
    (same : first.SameView last) : last.Causal ignored := by
  obtain ⟨stored, known, read, parsed, storable, summarized⟩ := causal
  exact ⟨stored, known, same.readState ▸ read, parsed, storable,
    summarized.of_lookup fun address _ => (same.lookup address).symm⟩

namespace Partition

variable {backend : Backend} {store next : Partition} {slices : List Slice}
  {outcomes : List SliceOutcome}

theorem causal_transact
    (done : Scheduler.transact ignored (Scheduler.runAll (slices.map Slice.execute)) store =
      .ok (outcomes, next))
    (causal : store.begin.Causal (Context.ignoring ignored).ignored) :
    next.begin.Causal (Context.ignoring ignored).ignored := by
  obtain ⟨workspace, ran, rfl⟩ := Scheduler.transact_eq_ok_iff.mp done
  have kept := Slice.runAll_invariant (fun workspace =>
    workspace.context.ignored = (Context.ignoring ignored).ignored ∧ workspace.context.Canonical ∧
      workspace.transaction.Causal (Context.ignoring ignored).ignored) ran ?_
    ⟨rfl, Context.canonical_ignoring ignored, causal⟩
  · exact kept.2.2.sameView workspace.transaction.sameView_begin_commit.symm
  · intro slice _ before outcome after one ⟨names, canonical, held⟩
    have same := (Slice.attempt_execute_ignored one).trans names
    obtain ⟨stored, previous, started, applied, text, record, executed⟩ :=
      Slice.attempt_execute_iff.mp one
    obtain ⟨vector, carries⟩ := executed.carries canonical
    rw [← names] at held
    refine ⟨same, carries.canonical, ?_⟩
    rw [← names]
    exact executed.causal canonical held

/-- In every store that slices lead to from an empty one the database change vector can be read and
covers the vector of every record, which can be read as well, and none of them has an entry that is
transactional or of an ignored instance. -/
theorem causality (history : (create backend).Runs (fun _ => True) ignored store) :
    ∃ state known, store.readState = .ok state ∧
      ChangeVector.parse (state.getD .empty).changeVector = .ok known ∧ known.Storable ignored ∧
      ∀ table, table ∉ [Table.attachmentBlobs, .state] → ∀ entry ∈ store.entriesOf table,
        ∃ record vector, table.decode entry.value = .ok record ∧
          ChangeVector.parse (table.vectorOf record) = .ok vector ∧ vector.Storable ignored ∧
          known.covers vector = true := by
  have causal : store.begin.Causal (Context.ignoring ignored).ignored := by
    induction history with
    | refl => exact Transaction.causal_create backend _
    | step _ _ done ih => exact causal_transact done ih
  obtain ⟨state, known, read, parsed, storable, summarized⟩ := causal
  refine ⟨state, known, read, parsed, storable.of_ignoring, fun table versioned entry member => ?_⟩
  obtain ⟨place, found⟩ := exists_lookup member
  have records : table ≠ .state := by
    rintro rfl
    exact versioned (by decide)
  obtain ⟨record, vector, decoded, vectorParsed, vectorStorable, covers⟩ :=
    summarized (table, place) entry found records
  exact ⟨record, vector, decoded, vectorParsed, vectorStorable.of_ignoring, covers⟩

/-- Two sources that changed a document without knowing of each other, one of them in a transaction,
and a deletion that only one of them knows of; entries of one instance are ignored. -/
def concurrentSources : List Slice := [
  ⟨"north", 7, [.change ⟨⟨"RV:3-A, TRXN:9-T", 6, .epoch, 0⟩, .document "users/1" "users" [1]⟩,
    .change ⟨⟨"RV:7-A, RV:2-X", 7, .epoch, 0⟩, .revisionTombstone "RV:1-A" "users"⟩]⟩,
  ⟨"south", 5, [.change ⟨⟨"RV:5-B, RV:8-X", 5, .epoch, 0⟩, .document "Users/1" "users" [2]⟩,
    .change ⟨⟨"RV:4-B", 4, .epoch, 0⟩, .counter "users/1" "likes" [3]⟩]⟩]

theorem causality_concurrentSources :
    ∃ outcomes store,
      Scheduler.transact ["X"] (Scheduler.runAll (concurrentSources.map Slice.execute))
        (.create .mapped) = .ok (outcomes, store) ∧
      outcomes = [⟨2, 0⟩, ⟨2, 0⟩] ∧
      ∃ state known, store.readState = .ok state ∧
        ChangeVector.parse (state.getD .empty).changeVector = .ok known ∧ known.Storable ["X"] ∧
        ∀ table, table ∉ [Table.attachmentBlobs, .state] → ∀ entry ∈ store.entriesOf table,
          ∃ record vector, table.decode entry.value = .ok record ∧
            ChangeVector.parse (table.vectorOf record) = .ok vector ∧ vector.Storable ["X"] ∧
            known.covers vector = true := by
  have counted : (Scheduler.transact ["X"] (Scheduler.runAll (concurrentSources.map Slice.execute))
      (.create .mapped)).toOption.map (·.1) = some [⟨2, 0⟩, ⟨2, 0⟩] := by decide +kernel
  cases committed : Scheduler.transact ["X"]
      (Scheduler.runAll (concurrentSources.map Slice.execute)) (.create .mapped) with
  | ok result =>
      rw [committed] at counted
      refine ⟨result.1, result.2, rfl, Option.some.inj counted, ?_⟩
      exact causality (.step (.refl (.create .mapped)) (fun _ _ => trivial) committed)
  | error fault =>
      rw [committed] at counted
      contradiction

end Partition

end DocumentReplication
