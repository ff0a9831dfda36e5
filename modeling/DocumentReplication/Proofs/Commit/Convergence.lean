import DocumentReplication.Proofs.Commit.Accumulation
import DocumentReplication.Proofs.Commit.Completion
import DocumentReplication.Proofs.Commit.Staleness

/-!
What does not depend on the order of delivery. Whatever slices bring some changes to an empty store,
and in which order, the vector of a record ends up as the join of all that the changes of this record
bring. Where one of any two of them knows the other, the record itself is the one of the greatest.

The record of a key is the row that the store keeps for it. A store in memory has a row for every key.
A mapped store keeps short keys as they are, beside the digests of long ones, and a short key that reads
like the digest of a long one shares its row: there the changes of both keys are taken for changes of
one record.

Attachments are left out, since their deletion leaves no vector, and so are revisions, whose vectors
are not compared.
-/

namespace DocumentReplication

variable {ignored : List String} {backend : Backend} {home table : Table} {key : String}
  {work before after : Transaction} {change other : Change} {items : List Change}
  {payloads : Dictionary String Bytes} {vector : ChangeVector} {log : List LogEntry}

/-- The homes of records that are compared with what comes in and never forgotten. -/
def Table.convergent : List Table := [.documents, .counters, .timeSeries, .timeSeriesRanges]

theorem Table.records_of_convergent (convergent : home ∈ Table.convergent)
    (member : table ∈ Change.tablesOf home) : table ≠ .attachmentBlobs ∧ table ≠ .state :=
  (by decide : ∀ home ∈ Table.convergent, ∀ table ∈ Change.tablesOf home,
    table ≠ .attachmentBlobs ∧ table ≠ .state) home convergent table member

namespace Change

/-- A change is about the record of a key. -/
def Meets (change : Change) (home : Table) (key : String) : Prop :=
  change.home = home ∧ change.key = key

instance : Decidable (change.Meets home key) :=
  inferInstanceAs (Decidable (_ ∧ _))

/-- A change goes to the row that a store keeps for a key. -/
def InRow (change : Change) (backend : Backend) (home : Table) (key : String) : Prop :=
  change.home = home ∧ backend.storedKey change.key = backend.storedKey key

instance : Decidable (change.InRow backend home key) :=
  inferInstanceAs (Decidable (_ ∧ _))

/-- Of any two changes one knows the other, and both know each other only if they are the same. -/
def Linear (ignored : List String) (items : List Change) : Prop :=
  ∀ one ∈ items, ∀ two ∈ items,
    (one.Covers ignored two ∨ two.Covers ignored one) ∧
    (one.Covers ignored two → two.Covers ignored one → one = two)

instance : Decidable (Linear ignored items) :=
  inferInstanceAs (Decidable (∀ one ∈ items, ∀ two ∈ items, _ ∧ _))

theorem covers_iff_of_brings {incoming brought : ChangeVector} (first : change.Brings ignored incoming)
    (second : other.Brings ignored brought) :
    change.Covers ignored other ↔ incoming.covers brought = true := by
  obtain ⟨dropped, read⟩ := first
  obtain ⟨otherDropped, otherRead⟩ := second
  constructor
  · intro known
    obtain ⟨_, _, _, _, again, otherAgain, covers⟩ := known
    cases read.symm.trans again
    cases otherRead.symm.trans otherAgain
    exact covers
  · exact fun covers => ⟨_, _, _, _, read, otherRead, covers⟩

namespace InRow

theorem lasting (inRow : change.InRow backend home key) (convergent : home ∈ Table.convergent) :
    change.kind ≠ .attachmentTombstone := by
  intro deletes
  rw [← inRow.1, home_of_attachmentTombstone deletes] at convergent
  exact absurd convergent (by decide)

theorem compared (inRow : change.InRow backend home key) (convergent : home ∈ Table.convergent) :
    change.kind ≠ .revisionTombstone := by
  intro revision
  rw [← inRow.1, home_eq_revisionTombstones.mpr revision] at convergent
  exact absurd convergent (by decide)

end InRow

/-- A change that goes to another row does not touch this one. -/
theorem Applied.lookup_of_not_inRow {written : Option ChangeVector}
    (applied : change.Applied payloads ignored before after written)
    (convergent : home ∈ Table.convergent) (other : ¬ change.InRow before.base.backend home key)
    (member : table ∈ tablesOf home) :
    after.lookup? (before.address table key) = before.lookup? (before.address table key) := by
  have records := Table.records_of_convergent convergent member
  refine applied.lookup_of_ne (fun touched touchedMember same => ?_) records.1
  obtain ⟨sameTable, sameKey⟩ := Prod.ext_iff.mp same
  simp only [Transaction.address] at sameTable sameKey
  subst sameTable
  have main : home ≠ .tombstones := by
    intro deleted
    subst deleted
    exact absurd convergent (by decide)
  exact other ⟨home_of_mem main touchedMember member, sameKey⟩

end Change

namespace Transaction

/-- Nothing is kept in the row of a key. -/
def Vacant (work : Transaction) (home : Table) (key : String) : Prop :=
  ∀ table ∈ Change.tablesOf home, work.lookup? (work.address table key) = none

theorem homeVector_eq_none
    (absent : ∀ table ∈ Change.tablesOf home, work.get table key = .ok none) :
    work.homeVector home key = .ok none := by
  have each (table : Table) (member : table ∈ Change.tablesOf home) :
      work.vectorAt table key = .ok none := by
    rw [vectorAt, absent table member]
    rfl
  cases home <;> simp only [homeVector]
  case documents =>
    rw [each .documents (by simp [Change.tablesOf]), Except.ok_bind]
    exact each .tombstones (by simp [Change.tablesOf])
  all_goals exact each _ (by simp [Change.tablesOf])

theorem Vacant.homeVector (vacant : work.Vacant home key)
    (inRow : change.InRow work.base.backend home key)
    (allowed : work.base.backend.checkKey change.key = .ok ()) :
    work.homeVector change.home change.key = .ok none := by
  apply homeVector_eq_none
  intro table member
  have same : work.address table change.key = work.address table key := Prod.ext rfl inRow.2
  rw [get_eq_ok_iff, same, vacant table (inRow.1 ▸ member)]
  exact ⟨allowed, rfl⟩

theorem Vacant.not_known (vacant : work.Vacant home key) (convergent : home ∈ Table.convergent)
    (inRow : change.InRow work.base.backend home key) : ¬ change.Known ignored work := by
  intro known
  have absent := vacant.homeVector inRow known.checkKey
  cases known with
  | noted revision => exact inRow.compared convergent revision
  | covered compared read found => cases found.symm.trans absent

end Transaction

/-- The record in the row of a key once some changes were delivered to the row: the one of the last
change that was written, with the join of all vectors. -/
structure Transaction.Keeps (ignored : List String) (home : Table) (key : String)
    (items : List Change) (last : Change) (vector : ChangeVector) (work : Transaction) : Prop where
  member : last ∈ items
  inRow : last.InRow work.base.backend home key
  legible : vector.Legible
  stands : last.Stands vector.text work
  join : vector.IsJoin fun part => ∃ item ∈ items, item.Brings ignored part
  newest : Change.Linear ignored items → last.Brings ignored vector

/-- What there is in the row of a key: nothing before the first change was delivered, then one record. -/
inductive Transaction.Delivered (ignored : List String) (home : Table) (key : String)
    (items : List Change) (work : Transaction) : Prop
  | vacant (none : items = []) (vacant : work.Vacant home key)
  | kept {last : Change} {vector : ChangeVector}
      (keeps : work.Keeps ignored home key items last vector)

/-- What two stores hold for a key once the same changes were delivered to both: nothing where there was
no change, and otherwise two records with the join of all vectors. Where the changes are in line with
each other, both are the record of the greatest one. -/
structure Partition.Agrees (ignored : List String) (home : Table) (key : String)
    (items : List Change) (store twin : Partition) : Prop where
  vacant : items = [] → store.begin.Vacant home key ∧ twin.begin.Vacant home key
  kept : items ≠ [] → ∃ last vector twinLast twinVector,
    store.begin.Keeps ignored home key items last vector ∧
    twin.begin.Keeps ignored home key items twinLast twinVector ∧
    vector.equiv twinVector = true ∧
    (Change.Linear ignored items →
      last = twinLast ∧ vector = twinVector ∧ ∀ item ∈ items, last.Covers ignored item)

namespace LogEntry

/-- The changes of a log that are about the record of a key. -/
def under (home : Table) (key : String) (log : List LogEntry) : List Change :=
  (log.map (·.change)).filter (·.Meets home key)

/-- The changes of a log that go to the row of a key. -/
def inRow (backend : Backend) (home : Table) (key : String) (log : List LogEntry) : List Change :=
  (log.map (·.change)).filter (·.InRow backend home key)

end LogEntry

namespace Change

theorem Linear.of_append {more : List Change} (linear : Linear ignored (items ++ more)) :
    Linear ignored items :=
  fun one first two second =>
    linear one (List.mem_append_left _ first) two (List.mem_append_left _ second)

theorem brings_append {incoming part : ChangeVector} {dropped : Bool}
    (read : change.incoming ignored = .ok (incoming, dropped)) :
    ((∃ item ∈ items, item.Brings ignored part) ∨ part = incoming) ↔
      ∃ item ∈ items ++ [change], item.Brings ignored part := by
  simp only [List.mem_append, List.mem_singleton, or_and_right, exists_or, exists_eq_left,
    brings_iff read]

end Change

namespace Transaction.Keeps

variable {last : Change}

theorem of_get (keeps : Keeps ignored home key items last vector before)
    (backend : after.base.backend = before.base.backend)
    (same : ∀ table ∈ Change.tablesOf home, after.get table last.key = before.get table last.key) :
    Keeps ignored home key items last vector after := by
  obtain ⟨bytes, made, found⟩ := keeps.stands.stored
  have inHome := keeps.inRow.1
  refine { keeps with
    inRow := backend ▸ keeps.inRow
    stands := ⟨⟨bytes, made, ?_⟩, fun table displaces => ?_⟩ }
  · rw [same _ (inHome ▸ last.table_mem), found]
  · rw [same _ (inHome ▸ Change.displaced_mem displaces), keeps.stands.alone table displaces]

/-- The vector that another change of the row meets. -/
theorem homeVector (keeps : Keeps ignored home key items last vector work)
    (inRow : change.InRow work.base.backend home key)
    (allowed : work.base.backend.checkKey change.key = .ok ()) :
    work.homeVector change.home change.key = .ok (some vector.text) := by
  obtain ⟨bytes, made, found⟩ := keeps.stands.stored
  have there (table : Table) : work.address table change.key = work.address table last.key :=
    Prod.ext rfl (inRow.2.trans keeps.inRow.2.symm)
  rw [inRow.1, ← keeps.inRow.1, homeVector_congr fun table _ =>
    get_of_address (there table) allowed (checkKey_of_get found)]
  exact keeps.stands.homeVector

/-- Nothing is ignored of a vector that is kept. -/
theorem without (keeps : Keeps ignored home key items last vector work) :
    vector.without ignored = vector := by
  refine keeps.join.without fun part ⟨item, _, dropped, read⟩ => ?_
  exact (Change.legible_incoming read).2.countIn

/-- The first change of a row is written as it is. -/
theorem first {dropped : Bool} (inRow : change.InRow work.base.backend home key)
    (stands : change.Stands vector.text work)
    (read : change.incoming ignored = .ok (vector, dropped)) :
    Keeps ignored home key [change] change vector work where
  member := List.mem_singleton_self change
  inRow := inRow
  legible := (Change.legible_incoming read).1
  stands := stands
  join := (ChangeVector.isJoin_self vector).congr fun part => by
    simp only [List.mem_singleton, exists_eq_left, Change.brings_iff read]
  newest _ := ⟨dropped, read⟩

/-- A change that is skipped was part of the join all along. -/
theorem known (keeps : Keeps ignored home key items last vector work)
    (convergent : home ∈ Table.convergent) (inRow : change.InRow work.base.backend home key)
    (known : change.Known ignored work) :
    Keeps ignored home key (items ++ [change]) last vector work := by
  have allowed := known.checkKey
  cases known with
  | noted revision => exact absurd revision (inRow.compared convergent)
  | covered compared read found parsed covers =>
      cases found.symm.trans (keeps.homeVector inRow allowed)
      cases parsed.symm.trans (ChangeVector.parse_text keeps.legible)
      rw [keeps.without] at covers
      have within : ∀ part, part = _ → vector.covers part = true := fun part same => same ▸ covers
      exact { keeps with
        member := List.mem_append_left _ keeps.member
        join := (keeps.join.known within).congr fun part => Change.brings_append read
        newest := fun linear => keeps.newest linear.of_append }

/-- A change that is written takes over, with the join of its vector and the one before. -/
theorem overwritten {incoming written : ChangeVector} {dropped : Bool}
    (keeps : Keeps ignored home key items last vector before)
    (inRow : change.InRow after.base.backend home key) (stands : change.Stands written.text after)
    (legible : written.Legible) (read : change.incoming ignored = .ok (incoming, dropped))
    (settled : incoming.settle vector = some written) :
    Keeps ignored home key (items ++ [change]) change written after := by
  have listed : change ∈ items ++ [change] := List.mem_append_right _ (List.mem_singleton_self _)
  refine ⟨listed, inRow, legible, stands, ?_, fun linear => ?_⟩
  · exact (keeps.join.settled settled).congr fun part => Change.brings_append read
  · -- The one before does not know this change, so this change knows the one before.
    have before := keeps.newest linear.of_append
    have unknown : ¬ last.Covers ignored change := by
      rw [Change.covers_iff_of_brings before ⟨dropped, read⟩, ← ChangeVector.settle_eq_none_iff,
        settled]
      exact nofun
    have newer := ((linear change listed last
      (List.mem_append_left _ keeps.member)).1).resolve_right unknown
    rw [Change.covers_iff_of_brings ⟨dropped, read⟩ before] at newer
    rw [ChangeVector.eq_of_settle settled newer]
    exact ⟨dropped, read⟩

theorem of_ignoring (keeps : work.Keeps (Context.ignoring ignored).ignored home key items last vector) :
    work.Keeps ignored home key items last vector :=
  { keeps with
    join := by simpa only [Change.brings_ignoring] using keeps.join
    newest := by
      simpa only [Change.Linear, Change.covers_ignoring, Change.brings_ignoring]
        using keeps.newest }

/-- Of some changes it only matters which ones they are. -/
theorem congr {others : List Change} (keeps : Keeps ignored home key items last vector work)
    (same : ∀ item, item ∈ items ↔ item ∈ others) :
    Keeps ignored home key others last vector work :=
  { keeps with
    member := (same last).mp keeps.member
    join := keeps.join.congr fun part => by simp only [same]
    newest := fun linear => keeps.newest fun one first two second =>
      linear one ((same one).mp first) two ((same two).mp second) }

/-- Of changes in line with each other the record that is kept is the one of the greatest. -/
theorem greatest (keeps : Keeps ignored home key items last vector work)
    (linear : Change.Linear ignored items) {item : Change} (member : item ∈ items) :
    last.Covers ignored item := by
  obtain ⟨brought, dropped, _, _, read, -⟩ := or_self_iff.mp (linear item member item member).1
  rw [Change.covers_iff_of_brings (keeps.newest linear) ⟨dropped, read⟩]
  exact keeps.join.covers brought ⟨item, member, dropped, read⟩

end Transaction.Keeps

namespace Transaction.Delivered

/-- Work that leaves a row alone keeps what was delivered. -/
theorem of_lookup (held : Delivered ignored home key items before)
    (backend : after.base.backend = before.base.backend)
    (same : ∀ table ∈ Change.tablesOf home,
      after.lookup? (before.address table key) = before.lookup? (before.address table key)) :
    Delivered ignored home key items after := by
  have address (table : Table) (twin : String) :
      after.address table twin = before.address table twin := by
    rw [Transaction.address, backend, Transaction.address]
  cases held with
  | vacant none vacant =>
      refine .vacant none fun table member => ?_
      rw [address, same table member]
      exact vacant table member
  | @kept last vector keeps =>
      refine .kept (keeps.of_get backend fun table member => ?_)
      have there : before.address table last.key = before.address table key :=
        Prod.ext rfl keeps.inRow.2
      rw [get_eq, get_eq, backend, address, there, same table member]

theorem sameRecords (held : Delivered ignored home key items before)
    (convergent : home ∈ Table.convergent) (same : before.SameRecords after) :
    Delivered ignored home key items after := by
  refine held.of_lookup same.backend.symm fun table member => ?_
  exact (same.lookup _ (Table.records_of_convergent convergent member).2).symm

/-- A change is delivered to the row. -/
theorem applied {written : Option ChangeVector} (held : Delivered ignored home key items before)
    (convergent : home ∈ Table.convergent) (inRow : change.InRow before.base.backend home key)
    (applied : change.Applied payloads ignored before after written) :
    Delivered ignored home key (items ++ [change]) after := by
  have base := applied.base
  cases applied with
  | known known =>
      cases held with
      | vacant none vacant => exact absurd known (vacant.not_known convergent inRow)
      | kept keeps => exact .kept (keeps.known convergent inRow known)
  | written raises provides writes =>
      have allowed := writes.checkKey
      rw [provides.base] at allowed
      have stands := writes.stands (inRow.lasting convergent)
      have there : change.InRow after.base.backend home key := base ▸ inRow
      obtain ⟨incoming, dropped, read, settles⟩ := raises.settles
      cases held with
      | vacant none vacant =>
          have absent := vacant.homeVector inRow allowed
          cases settles with
          | alone =>
              rw [none, List.nil_append]
              exact .kept (.first there stands read)
          | met compared found => cases found.symm.trans absent
      | kept keeps =>
          have present := keeps.homeVector inRow allowed
          cases settles with
          | alone absent => cases present.symm.trans (absent (inRow.compared convergent))
          | met compared found parsed settled =>
              cases found.symm.trans present
              cases parsed.symm.trans (ChangeVector.parse_text keeps.legible)
              rw [keeps.without] at settled
              exact .kept (keeps.overwritten there stands raises.legible read settled)

/-- What a log tells of a row is delivered there. -/
theorem leads {start final : Transaction} (held : Delivered ignored home key items start)
    (convergent : home ∈ Table.convergent) (leads : LogEntry.Leads ignored start log final) :
    Delivered ignored home key (items ++ LogEntry.inRow start.base.backend home key log) final := by
  induction leads generalizing items with
  | nil same =>
      rw [LogEntry.inRow, List.map_nil, List.filter_nil, List.append_nil]
      exact held.sameRecords convergent same
  | @cons start final entry rest same genuine leads ih =>
      obtain ⟨payloads, applied⟩ := genuine.applied
      have met := held.sameRecords convergent same
      have backend : entry.after.base.backend = start.base.backend := by
        rw [applied.base, same.backend]
      rw [backend] at ih
      rw [LogEntry.inRow, List.map_cons, List.filter_cons]
      by_cases inRow : entry.change.InRow start.base.backend home key
      · rw [if_pos (decide_eq_true inRow), List.append_cons]
        rw [same.backend] at inRow
        exact ih (met.applied convergent inRow applied)
      · rw [if_neg (by simpa using inRow)]
        rw [same.backend] at inRow
        refine ih (met.of_lookup (congrArg _ applied.base) fun table member => ?_)
        exact applied.lookup_of_not_inRow convergent inRow member

end Transaction.Delivered

namespace Scheduler

variable {runs reruns : List (List Slice)} {store twin : Partition} {twins : List LogEntry}

def documentWritten : Change :=
  ⟨⟨"RV:3-A, RV:9-X", 3, .epoch, 0⟩, .document "users/1" "users" [1]⟩

def documentDeleted : Change :=
  ⟨⟨"RV:3-A, RV:2-B, TRXN:1-T", 2, .epoch, 0⟩, .documentTombstone "Users/1" "users"⟩

def documentReturned : Change :=
  ⟨⟨"RV:5-A, RV:2-B", 5, .epoch, 0⟩, .document "users/1" "users" [2]⟩

/-- A document that is written, deleted and written again, in this order and in the other one. -/
def inOrder : List (List Slice) :=
  [[⟨"north", 3, [.change documentWritten]⟩, ⟨"south", 2, [.change documentDeleted]⟩],
   [⟨"north", 5, [.change documentReturned]⟩]]

end Scheduler

end DocumentReplication
