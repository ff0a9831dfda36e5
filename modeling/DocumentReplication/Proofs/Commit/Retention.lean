import DocumentReplication.Proofs.Commit.Etags
import DocumentReplication.Proofs.Commit.History
import DocumentReplication.Proofs.Commit.Knowledge

/-!
What a store retains. A record that a committed change left may be written over, but only by one that
covers the change as well, and the etag that a source reached only moves forward; so what a committed
slice brought stays, whatever slices follow.
-/

namespace DocumentReplication

open Work

variable {ignored : List String} {change : Change} {slice : Slice} {outcome : SliceOutcome}
  {store next later : Partition} {before after : Workspace} {source : String} {etag : Int64}

theorem Context.mem_ignored_ignore {instanceId name : String} {context : Context} :
    name ∈ (context.ignore instanceId).ignored ↔ name = instanceId ∨ name ∈ context.ignored := by
  unfold ignore touch
  by_cases known : instanceId ∈ context.ignored
  · simp only [List.contains_iff_mem.mpr known, if_true]
    exact ⟨.inr, fun either => either.elim (fun same => same ▸ known) id⟩
  · simp [known, or_comm]

theorem Context.mem_ignored_ignoreAll {instanceIds : List String} {name : String}
    {context : Context} : name ∈ (context.ignoreAll instanceIds).ignored ↔
      name ∈ instanceIds ∨ name ∈ context.ignored := by
  induction instanceIds generalizing context with
  | nil => simp [ignoreAll]
  | cons first rest ih =>
      have begins : context.ignoreAll (first :: rest) = (context.ignore first).ignoreAll rest := rfl
      rw [begins, ih, mem_ignored_ignore, List.mem_cons, or_assoc, or_left_comm]

theorem Context.contains_ignoring (instanceIds : List String) (name : String) :
    (ignoring instanceIds).ignored.contains name = instanceIds.contains name := by
  rw [Bool.eq_iff_iff, List.contains_iff_mem, List.contains_iff_mem, ignoring, mem_ignored_ignoreAll]
  simp [fresh]

theorem ChangeVector.without_ignoring (vector : ChangeVector) (instanceIds : List String) :
    vector.without (Context.ignoring instanceIds).ignored = vector.without instanceIds := by
  simp only [without, Context.contains_ignoring]

theorem ChangeVector.countIn_ignoring (vector : ChangeVector) (instanceIds : List String) :
    vector.countIn (Context.ignoring instanceIds).ignored = vector.countIn instanceIds := by
  simp only [countIn, Context.contains_ignoring]

theorem Change.incoming_ignoring (change : Change) (instanceIds : List String) :
    change.incoming (Context.ignoring instanceIds).ignored = change.incoming instanceIds := by
  have same (vector : ChangeVector) :
      vector.storable (Context.ignoring instanceIds).ignored = vector.storable instanceIds := by
    simp only [ChangeVector.storable]
    rw [ChangeVector.without_ignoring, ChangeVector.countIn_ignoring]
  simp only [incoming, same]

/-- A store holds a change if it has a record of it, or of its document's deletion or return, whose
vector covers all of the change that may be stored. -/
def Partition.Holds (store : Partition) (ignored : List String) (change : Change) : Prop :=
  ∃ table ∈ Change.tablesOf change.home, ∃ bytes record vector incoming,
    store.read table change.key = .ok (some bytes) ∧ table.decode bytes = .ok record ∧
    ChangeVector.parse (table.vectorOf record) = .ok vector ∧
    ChangeVector.parse change.header.changeVector = .ok incoming ∧
    vector.covers (incoming.withoutTransactional.without ignored) = true

theorem Transaction.homeVector_eq_some {work : Transaction} {home : Table} {key text : String}
    (found : work.homeVector home key = .ok (some text)) :
    ∃ table ∈ Change.tablesOf home, ∃ bytes record, work.get table key = .ok (some bytes) ∧
      table.decode bytes = .ok record ∧ table.vectorOf record = text := by
  have at_ {table : Table} (found : work.vectorAt table key = .ok (some text)) :
      ∃ bytes record, work.get table key = .ok (some bytes) ∧
        table.decode bytes = .ok record ∧ table.vectorOf record = text := by
    obtain ⟨bytes, read, found⟩ := Except.bind_eq_ok_iff.mp found
    cases bytes with
    | none => cases found
    | some bytes =>
        obtain ⟨record, decoded, same⟩ := Except.bind_eq_ok_iff.mp found
        cases same
        exact ⟨bytes, record, read, decoded, rfl⟩
  cases home <;> simp only [homeVector] at found
  case documents =>
    obtain ⟨live, read, found⟩ := Except.bind_eq_ok_iff.mp found
    cases live with
    | some known =>
        cases found
        exact ⟨.documents, by simp [Change.tablesOf], at_ read⟩
    | none => exact ⟨.tombstones, by simp [Change.tablesOf], at_ found⟩
  all_goals exact ⟨_, by simp [Change.tablesOf], at_ found⟩

theorem Change.Known.holds
    (known : change.Known (Context.ignoring ignored).ignored store.begin)
    (compared : change.kind ≠ .revisionTombstone) : store.Holds ignored change := by
  cases known with
  | noted revision => exact absurd revision compared
  | covered _ read found parsed covers =>
      obtain ⟨table, member, bytes, record, got, decoded, rfl⟩ :=
        Transaction.homeVector_eq_some found
      obtain ⟨incoming, incomingParsed, rfl, -⟩ := Change.incoming_eq_ok_iff.mp read
      refine ⟨table, member, bytes, record, _, incoming, got, decoded, parsed, incomingParsed, ?_⟩
      rw [← ChangeVector.without_ignoring]
      exact ChangeVector.covers_trans (ChangeVector.covers_without ..) covers

/-- Changes whose record is never given up again. The deletion of an attachment leaves nothing
behind. -/
def Change.Lasting (change : Change) : Prop := change.home ≠ .attachments

theorem Transaction.kept_known (lasting : change.Lasting) :
    Transaction.Kept Slice.Verified ignored (change.Known (Context.ignoring ignored).ignored) where
  view same known := known.sameView same
  execute _ same done known := by
    obtain ⟨stored, previous, started, applied, text, record, executed⟩ :=
      Slice.attempt_execute_iff.mp done
    have left : change.Known (Context.ignoring ignored).ignored applied.transaction := by
      refine executed.changes_keep _ (fun other _ _ _ _ applied held => ?_) known
      rw [same] at applied
      exact held.applied applied fun _ ⟨_, attached, _⟩ => lasting attached
    exact left.put_state executed.put

theorem Change.Known.of_transact (member : .change change ∈ slice.items) (lasting : change.Lasting)
    (done : Scheduler.transact ignored slice.execute store = .ok (outcome, next)) :
    change.Known (Context.ignoring ignored).ignored next.begin := by
  obtain ⟨workspace, ran, rfl⟩ := Scheduler.transact_eq_ok_iff.mp done
  obtain ⟨stored, previous, started, applied, text, record, executed⟩ :=
    Slice.attempt_execute_iff.mp ran
  have kept : change.kind ≠ .attachmentTombstone := fun deletes =>
    lasting (Change.home_of_attachmentTombstone deletes)
  have known := Slice.applyChanges_known executed.apply (Slice.mem_changes.mpr member) kept
    fun _ _ _ => lasting
  rw [← Slice.applyChanges_ignored executed.apply, executed.ignored] at known
  exact (known.put_state executed.put).sameView workspace.transaction.sameView_begin_commit.symm

/-- The state says that a source has been followed at least up to an etag. -/
def Transaction.Reached (source : String) (etag : Int64) (work : Transaction) : Prop :=
  ∃ state current, work.readState = .ok (some state) ∧
    state.lastEtagFrom.get? source = some current ∧ etag ≤ current

theorem Transaction.kept_reached (ignored : List String) (source : String) (etag : Int64) :
    Transaction.Kept Slice.Verified ignored (Transaction.Reached source etag) where
  view same reached := by
    obtain ⟨state, current, read, found, behind⟩ := reached
    exact ⟨state, current, same.readState ▸ read, found, behind⟩
  execute _ _ done reached := by
    obtain ⟨state, current, read, found, behind⟩ := reached
    obtain ⟨stored, previous, started, applied, text, record, executed⟩ :=
      Slice.attempt_execute_iff.mp done
    obtain rfl : some state = stored := Except.ok.inj (read.symm.trans executed.read)
    obtain ⟨further, there, above⟩ := (Slice.behind_advance _ _).1 source current found
    exact ⟨_, further, executed.readState, there, Int64.le_trans behind above⟩

theorem Transaction.Reached.of_transact
    (done : Scheduler.transact ignored slice.execute store = .ok (outcome, next)) :
    next.begin.Reached slice.source slice.lastEtag := by
  obtain ⟨workspace, ran, rfl⟩ := Scheduler.transact_eq_ok_iff.mp done
  obtain ⟨stored, previous, started, applied, text, record, executed⟩ :=
    Slice.attempt_execute_iff.mp ran
  obtain ⟨noted, notedFound, below⟩ :=
    exists_recordEtag applied.context slice.source slice.lastEtag
  obtain ⟨current, found, above⟩ := (Slice.behind_advance _ _).2 slice.source noted notedFound
  refine (Transaction.kept_reached ignored _ _).view
    workspace.transaction.sameView_begin_commit.symm ?_
  exact ⟨_, current, executed.readState, found, Int64.le_trans below above⟩

end DocumentReplication
