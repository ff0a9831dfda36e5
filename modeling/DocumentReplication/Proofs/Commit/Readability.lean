import DocumentReplication.Proofs.Commit.Causality
import DocumentReplication.Proofs.Commit.Merging

/-!
What can be read of a store, whatever its transactions ignored. Every record decodes and its vector
parses, and the entries of all vectors come from the vectors of changes: merging, filtering and
settling make up no entry. While a slice runs, the accumulated vector never falls behind the persisted
one, as far as that is not ignored, so the check before it is persisted finds nothing lost.
-/

namespace DocumentReplication

open Work

variable {ignored : List String} {payloads : Dictionary String Bytes} {change : Change}
  {work before after : Transaction} {holds : VectorEntry → Prop} {vector incoming : ChangeVector}
  {entry : VectorEntry}

theorem VectorEntry.advance_cases {seen : VectorEntry} (same : entry.instanceId = seen.instanceId) :
    entry.advance seen = entry ∨ entry.advance seen = seen := by
  obtain ⟨tag, etag, instanceId⟩ := entry
  obtain ⟨seenTag, seenEtag, seenId⟩ := seen
  obtain rfl : instanceId = seenId := same
  unfold advance
  split
  · exact .inr rfl
  · exact .inl rfl

namespace ChangeVector

theorem mem_of_mem_merge (member : entry ∈ (vector.merge incoming).entries) :
    entry ∈ vector.entries ∨ entry ∈ incoming.entries := by
  let brought (entry : VectorEntry) := entry ∈ vector.entries ∨ entry ∈ incoming.entries
  have advanced (entry seen : VectorEntry) (entryBrought : brought entry) (seenBrought : brought seen)
      (same : entry.instanceId = seen.instanceId) : brought (entry.advance seen) := by
    obtain kept | taken := VectorEntry.advance_cases same
    · rwa [kept]
    · rwa [taken]
  exact forall_mem_merge advanced (fun _ => .inl) (fun _ => .inr) entry member

theorem mem_of_mem_settle {written stored : ChangeVector}
    (settled : incoming.settle stored = some written) (member : entry ∈ written.entries) :
    entry ∈ incoming.entries ∨ entry ∈ stored.entries := by
  obtain ⟨rfl, -⟩ | rfl := settle_cases settled
  · exact .inl member
  · exact mem_of_mem_merge member

theorem mem_of_mem_without (member : entry ∈ (vector.without ignored).entries) :
    entry ∈ vector.entries :=
  (List.mem_filter.mp member).1

end ChangeVector

/-- Every record decodes and its vector parses, and what is expected of entries holds of each. -/
def Transaction.Readable (holds : VectorEntry → Prop) (work : Transaction) : Prop :=
  ∀ address stored, work.lookup? address = some stored → address.1 ≠ .state →
    ∃ record vector, address.1.decode stored.value = .ok record ∧
      ChangeVector.parse (address.1.vectorOf record) = .ok vector ∧
      ∀ entry ∈ vector.entries, holds entry

/-- A change brings only entries of which something holds. -/
def Change.Carries (change : Change) (ignored : List String) (holds : VectorEntry → Prop) : Prop :=
  ∀ incoming dropped, change.incoming ignored = .ok (incoming, dropped) →
    ∀ entry ∈ incoming.entries, holds entry

theorem Change.carries_plain (change : Change) (ignored : List String) :
    change.Carries ignored (·.isTransactional = false) :=
  fun _ _ read entry member => ((legible_incoming read).2 entry member).1

namespace Transaction.Readable

theorem of_lookup (readable : before.Readable holds)
    (same : ∀ address : Table × String, address.1 ≠ .state →
      after.lookup? address = before.lookup? address) : after.Readable holds := by
  intro address stored found records
  rw [same address records] at found
  exact readable address stored found records

theorem stripped (readable : work.Readable holds)
    (plain : ∀ entry, holds entry → entry.isTransactional = false) : work.Stripped := by
  intro address stored found records record decoded vector parsed
  obtain ⟨twin, read, twinDecoded, twinParsed, all⟩ := readable address stored found records
  obtain rfl : twin = record := Except.ok.inj (twinDecoded.symm.trans decoded)
  obtain rfl : read = vector := Except.ok.inj (twinParsed.symm.trans parsed)
  exact ChangeVector.filter_eq_self fun entry member => by simp [plain entry (all entry member)]

/-- The vector a change meets parses. -/
theorem homeVector {home : Table} {key text : String} (readable : work.Readable holds)
    (versioned : .state ∉ Change.tablesOf home)
    (found : work.homeVector home key = .ok (some text)) :
    ∃ vector, ChangeVector.parse text = .ok vector ∧ ∀ entry ∈ vector.entries, holds entry := by
  obtain ⟨table, member, bytes, record, got, decoded, rfl⟩ := Transaction.homeVector_eq_some found
  obtain ⟨stored, there, rfl⟩ := Option.map_eq_some_iff.mp (get_eq_ok_iff.mp got).2
  have records : table ≠ .state := by
    rintro rfl
    exact versioned member
  obtain ⟨twin, vector, twinDecoded, parsed, all⟩ := readable _ stored there records
  obtain rfl : record = twin := Except.ok.inj (decoded.symm.trans twinDecoded)
  exact ⟨vector, parsed, all⟩

/-- A change is written with entries that it brings or that were there. -/
theorem of_raises (readable : before.Readable holds) (carries : change.Carries ignored holds)
    (raises : change.Raises ignored before vector) : ∀ entry ∈ vector.entries, holds entry := by
  intro entry member
  obtain ⟨incoming, dropped, read, settles⟩ := raises.settles
  cases settles with
  | alone => exact carries vector dropped read entry member
  | met compared found parsed settled =>
      obtain brought | kept := ChangeVector.mem_of_mem_settle settled member
      · exact carries incoming dropped read entry brought
      · obtain ⟨known, again, all⟩ := readable.homeVector change.state_not_mem found
        obtain rfl := Except.ok.inj (parsed.symm.trans again)
        exact all entry (ChangeVector.mem_of_mem_without kept)

theorem applied {written : Option ChangeVector} (readable : before.Readable holds)
    (carries : change.Carries ignored holds)
    (applied : change.Applied payloads ignored before after written) : after.Readable holds := by
  cases applied with
  | known => exact readable
  | written raises provides writes =>
      intro address stored found records
      obtain earlier | ⟨made, -, rfl⟩ := writes.lookup_cases found
      · obtain old | ⟨content, -, -, rfl⟩ := provides.lookup_cases earlier
        · exact readable address stored old records
        · exact ⟨stored.value, .empty, rfl, rfl, nofun⟩
      · obtain ⟨record, decoded, same⟩ := Change.decode_record? made
        refine ⟨record, _, decoded, ?_, readable.of_raises carries raises⟩
        exact same ▸ ChangeVector.parse_text raises.legible

end Transaction.Readable

/-- The context of a slice that runs has not lost anything that the floor has. -/
structure Workspace.Ahead (holds : VectorEntry → Prop) (ignored : List String)
    (floor : ChangeVector) (workspace : Workspace) : Prop where
  names : workspace.context.ignored = ignored
  canonical : workspace.context.Canonical
  readable : workspace.transaction.Readable holds
  current : ∃ current, workspace.context.accumulated = .ok current ∧
    current.covers floor = true ∧ ∀ entry ∈ current.entries, holds entry

namespace Slice

variable {first last : Workspace} {floor previous : ChangeVector}

theorem Step.ahead (step : Step change payloads first last)
    (plain : ∀ entry, holds entry → entry.isTransactional = false)
    (carries : change.Carries ignored holds) (ahead : first.Ahead holds ignored floor) :
    last.Ahead holds ignored floor := by
  have readable : last.transaction.Readable holds := by
    obtain ⟨written, applied, -⟩ := step
    exact ahead.readable.applied (ahead.names ▸ carries) applied
  refine ⟨step.ignored.trans ahead.names, step.canonical ahead.canonical, readable, ?_⟩
  obtain ⟨current, accumulated, covers, all⟩ := ahead.current
  obtain ⟨written, applied, follows⟩ := step
  cases written with
  | none => exact ⟨current, follows.accumulated.trans accumulated, covers, all⟩
  | some vector =>
      obtain ⟨found, entered⟩ := follows
      obtain rfl : found = current := Except.ok.inj (entered.found.symm.trans accumulated)
      have raises := applied.raises
      have storable := (ahead.readable.stripped plain).vector_of_raises raises
      refine ⟨_, entered.accumulated, ?_⟩
      rw [Context.enter_of_storable (ahead.canonical.storable accumulated) storable]
      refine ⟨ChangeVector.covers_trans (ChangeVector.covers_merge_left ..) covers, ?_⟩
      intro entry member
      obtain known | written := ChangeVector.mem_of_mem_merge member
      · exact all entry known
      · exact ahead.readable.of_raises (ahead.names ▸ carries) raises entry written

/-- Starting keeps of the persisted vector what is not ignored. -/
theorem startFrom_ahead (canonical : first.context.Canonical)
    (nothing : first.context.vectorText = none) (legible : previous.Legible)
    (plain : ∀ entry, holds entry → entry.isTransactional = false)
    (all : ∀ entry ∈ previous.entries, holds entry) (readable : first.transaction.Readable holds)
    (done : attempt (startFrom previous) first = .ok ((), last)) :
    last.Ahead holds first.context.ignored (previous.without first.context.ignored) := by
  have fresh : first.context.accumulated = .ok .empty := by
    rw [Context.accumulated, nothing]
  obtain ⟨same, ⟨rfl, rfl⟩ | ⟨current, entered⟩⟩ := startFrom_cases legible done
  · refine ⟨rfl, canonical, readable, .empty, fresh, rfl, ?_⟩
    intro entry member
    cases member
  · obtain rfl : current = .empty := Except.ok.inj (entered.found.symm.trans fresh)
    have storable : (previous.without first.context.ignored).Storable first.context.ignored := by
      intro entry member
      exact ⟨plain entry (all entry (ChangeVector.mem_of_mem_without member)),
        ChangeVector.countIn_eq_zero_iff.mp (ChangeVector.countIn_without ..) entry member⟩
    refine ⟨entered.ignored, entered.canonical, same ▸ readable, _, entered.accumulated, ?_⟩
    rw [Context.enter_of_storable (ChangeVector.storable_empty _) storable,
      ChangeVector.empty_merge]
    exact ⟨ChangeVector.covers_refl _, fun entry member =>
      all entry (ChangeVector.mem_of_mem_without member)⟩

theorem Executed.ahead {slice : Slice} {outcome : SliceOutcome} {stored : Option ReplicationState}
    {started applied : Workspace} {text : Option String} {record : Bytes}
    (executed : slice.Executed first last outcome stored previous started applied text record)
    (canonical : first.context.Canonical) (nothing : first.context.vectorText = none)
    (plain : ∀ entry, holds entry → entry.isTransactional = false)
    (carries : ∀ change ∈ slice.changes, change.Carries first.context.ignored holds)
    (all : ∀ entry ∈ previous.entries, holds entry) (readable : first.transaction.Readable holds) :
    applied.Ahead holds first.context.ignored (previous.without first.context.ignored) := by
  refine applyChanges_invariant (Workspace.Ahead holds first.context.ignored
    (previous.without first.context.ignored)) executed.apply ?_
    (startFrom_ahead canonical nothing executed.legible plain all readable executed.start)
  intro change member before after step ahead
  exact step.ahead plain (carries change member) ahead

end Slice

/-- The persisted vector parses, and what is expected of entries holds of each. -/
def Transaction.Persists (holds : VectorEntry → Prop) (work : Transaction) : Prop :=
  ∃ stored known, work.readState = .ok stored ∧
    ChangeVector.parse (stored.getD .empty).changeVector = .ok known ∧
    ∀ entry ∈ known.entries, holds entry

theorem Transaction.Persists.sameView {first last : Transaction} (persists : first.Persists holds)
    (same : first.SameView last) : last.Persists holds := by
  obtain ⟨stored, known, read, parsed, all⟩ := persists
  exact ⟨stored, known, same.readState ▸ read, parsed, all⟩

namespace Scheduler

theorem runSeparately_keeps {kept : Transaction → Prop}
    (transact : ∀ {slice : Slice} {outcome : SliceOutcome} {store next : Partition},
      store.begin.Stripped → kept store.begin →
      transact ignored slice.execute store = .ok (outcome, next) → kept next.begin)
    (slices : List Slice) {store : Partition} (stripped : store.begin.Stripped)
    (held : kept store.begin) : kept (runSeparately ignored slices store).2.begin := by
  induction slices generalizing store with
  | nil => exact held
  | cons slice rest ih =>
      simp only [runSeparately]
      split
      · rename_i done
        exact ih (Partition.stripped_transact stripped done) (transact stripped held done)
      · exact ih stripped held

end Scheduler

namespace Partition

variable {store next : Partition} {slice : Slice} {outcome : SliceOutcome}

/-- What every slice that runs by itself keeps holds of all stores that come about: slices that share
a transaction come to the same as slices that run by themselves. -/
theorem Reachable.invariant {kept : Transaction → Prop} (reachable : store.Reachable)
    (view : ∀ {first last : Transaction}, first.SameView last → kept first → kept last)
    (created : ∀ backend, kept (create backend).begin)
    (transact : ∀ {ignored : List String} {slice : Slice} {outcome : SliceOutcome}
      {store next : Partition}, store.begin.Stripped → kept store.begin →
      Scheduler.transact ignored slice.execute store = .ok (outcome, next) → kept next.begin) :
    kept store.begin := by
  induction reachable with
  | created backend => exact created backend
  | committed earlier done ih => exact transact earlier.stripped ih done
  | @shared ignored slices outcomes store next earlier done ih =>
      obtain ⟨after, ran, rfl⟩ := Scheduler.transact_eq_ok_iff.mp done
      obtain ⟨-, same⟩ :=
        Scheduler.runSeparately_of_runAll ran (.inl rfl) earlier.stripped (.refl _)
      refine view (same.trans after.transaction.sameView_begin_commit.symm) ?_
      exact Scheduler.runSeparately_keeps transact slices earlier.stripped ih

theorem readable_transact (readable : store.begin.Readable (·.isTransactional = false))
    (done : Scheduler.transact ignored slice.execute store = .ok (outcome, next)) :
    next.begin.Readable (·.isTransactional = false) := by
  obtain ⟨workspace, ran, rfl⟩ := Scheduler.transact_eq_ok_iff.mp done
  obtain ⟨stored, previous, started, applied, text, record, executed⟩ :=
    Slice.attempt_execute_iff.mp ran
  have kept : applied.transaction.Readable (·.isTransactional = false) :=
    executed.changes_keep _
      (fun change _ _ _ _ applied held => held.applied (change.carries_plain _) applied) readable
  refine kept.of_lookup fun address records => ?_
  rw [workspace.transaction.sameView_begin_commit.lookup, Transaction.lookup?_put executed.put,
    if_neg]
  intro same
  exact records (congrArg Prod.fst same).symm

theorem persists_transact
    (done : Scheduler.transact ignored slice.execute store = .ok (outcome, next)) :
    next.begin.Persists (·.isTransactional = false) := by
  obtain ⟨workspace, ran, rfl⟩ := Scheduler.transact_eq_ok_iff.mp done
  obtain ⟨stored, previous, started, applied, text, record, executed⟩ :=
    Slice.attempt_execute_iff.mp ran
  obtain ⟨vector, carries⟩ := executed.carries (Context.canonical_ignoring ignored)
  have written : workspace.transaction.Persists (·.isTransactional = false) :=
    ⟨_, vector, executed.readState, carries.settled.parsed,
      fun entry member => (carries.settled.storable entry member).1⟩
  exact written.sameView workspace.transaction.sameView_begin_commit.symm

theorem Reachable.readable (reachable : store.Reachable) :
    store.begin.Readable (·.isTransactional = false) := by
  refine reachable.invariant ?_ ?_ fun _ readable done => readable_transact readable done
  · intro first last same readable
    exact readable.of_lookup fun address _ => (same.lookup address).symm
  · intro backend address stored found
    cases found

theorem Reachable.persists (reachable : store.Reachable) :
    store.begin.Persists (·.isTransactional = false) := by
  refine reachable.invariant (fun same persists => persists.sameView same) ?_
    fun _ _ done => persists_transact done
  intro backend
  refine ⟨none, .empty, ?_, rfl, nofun⟩
  cases backend <;> rfl

end Partition

end DocumentReplication
