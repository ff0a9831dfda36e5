import DocumentReplication.Proofs.Store.RoundTrip
import DocumentReplication.Proofs.Work
import DocumentReplication.Store.Transaction

/-!
What a transaction shows. Two transactions with the same view answer every read alike and keep the
same view under the same writes; how the entries came to be, and in which order, does not matter.
-/

namespace DocumentReplication

namespace Transaction

variable {work next : Transaction} {table other : Table} {key : String} {value : Bytes}
  {found : Option Bytes} {present : Bool}

theorem get_eq (work : Transaction) (table : Table) (key : String) :
    work.get table key = (work.base.backend.checkKey key).map fun _ =>
      (work.lookup? (work.address table key)).map (·.value) := by
  rw [get]
  cases work.base.backend.checkKey key <;> rfl

theorem get_eq_ok_iff :
    work.get table key = .ok found ↔ work.base.backend.checkKey key = .ok () ∧
      (work.lookup? (work.address table key)).map (·.value) = found := by
  rw [get_eq, Except.map_eq_ok_iff]
  constructor
  · rintro ⟨⟨⟩, allowed, same⟩
    exact ⟨allowed, same⟩
  · rintro ⟨allowed, same⟩
    exact ⟨(), allowed, same⟩

theorem put_eq (work : Transaction) (table : Table) (key : String) (value : Bytes) :
    work.put table key value = (work.base.backend.checkKey key).map fun _ => { work with
      staged := work.staged.insert (work.address table key) (some ⟨key, value⟩) } := by
  rw [put]
  cases work.base.backend.checkKey key <;> rfl

theorem delete_eq (work : Transaction) (table : Table) (key : String) :
    work.delete table key = (work.base.backend.checkKey key).map fun _ =>
      ((work.lookup? (work.address table key)).isSome,
        { work with staged := work.staged.insert (work.address table key) none }) := by
  rw [delete]
  cases work.base.backend.checkKey key <;> rfl

theorem base_put (done : work.put table key value = .ok next) : next.base = work.base := by
  rw [put_eq, Except.map_eq_ok_iff] at done
  obtain ⟨-, -, rfl⟩ := done
  rfl

theorem base_delete (done : work.delete table key = .ok (present, next)) :
    next.base = work.base := by
  rw [delete_eq, Except.map_eq_ok_iff] at done
  obtain ⟨-, -, same⟩ := done
  cases same
  rfl

theorem checkKey_of_put (done : work.put table key value = .ok next) :
    work.base.backend.checkKey key = .ok () := by
  rw [put_eq, Except.map_eq_ok_iff] at done
  exact done.elim fun _ checked => checked.1

theorem checkKey_of_delete (done : work.delete table key = .ok (present, next)) :
    work.base.backend.checkKey key = .ok () := by
  rw [delete_eq, Except.map_eq_ok_iff] at done
  exact done.elim fun _ checked => checked.1

theorem exists_put (allowed : work.base.backend.checkKey key = .ok ()) (table : Table)
    (value : Bytes) : ∃ next, work.put table key value = .ok next := by
  rw [put_eq, allowed]
  exact ⟨_, rfl⟩

theorem exists_delete (allowed : work.base.backend.checkKey key = .ok ()) (table : Table) :
    ∃ next, work.delete table key =
      .ok ((work.lookup? (work.address table key)).isSome, next) := by
  rw [delete_eq, allowed]
  exact ⟨_, rfl⟩

theorem get_put (done : work.put table key value = .ok next) :
    next.get table key = .ok (some value) := by
  have same : next.address table key = work.address table key := by
    rw [address, base_put done, address]
  rw [get_eq_ok_iff, base_put done, lookup?_put done, same, if_pos rfl]
  exact ⟨checkKey_of_put done, rfl⟩

theorem address_ne {first last : String} (apart : table ≠ other) :
    work.address table first ≠ work.address other last := fun same => apart (Prod.ext_iff.mp same).1

theorem get_put_of_ne {target : String} (done : work.put other target value = .ok next)
    (apart : work.address other target ≠ work.address table key) :
    next.get table key = work.get table key := by
  have same : next.address table key = work.address table key := by
    rw [address, base_put done, address]
  rw [get_eq, get_eq, base_put done, same, lookup?_put done, if_neg apart]

theorem get_delete_of_ne {target : String} (done : work.delete other target = .ok (present, next))
    (apart : work.address other target ≠ work.address table key) :
    next.get table key = work.get table key := by
  have same : next.address table key = work.address table key := by
    rw [address, base_delete done, address]
  rw [get_eq, get_eq, base_delete done, same, lookup?_delete done, if_neg apart]

theorem get_delete (done : work.delete table key = .ok (present, next)) :
    next.get table key = .ok none := by
  have same : next.address table key = work.address table key := by
    rw [address, base_delete done, address]
  rw [get_eq_ok_iff, base_delete done, same, lookup?_delete done, if_pos rfl]
  exact ⟨checkKey_of_delete done, rfl⟩

/-- What is staged for a record that can be stored is read back as that record. -/
theorem readState_of_get {state : ReplicationState} {bytes : Bytes}
    (found : work.get .state Partition.stateKey = .ok (some bytes))
    (stored : Stored.octets state = .ok bytes) : work.readState = .ok (some state) := by
  rw [readState, found, Except.ok_bind, Partition.decodeState, Stored.decode_octets stored]
  rfl

structure SameView (first last : Transaction) : Prop where
  backend : first.base.backend = last.base.backend
  lookup : ∀ address, first.lookup? address = last.lookup? address

namespace SameView

variable {first last : Transaction}

theorem refl (work : Transaction) : SameView work work := ⟨rfl, fun _ => rfl⟩

theorem symm (same : SameView first last) : SameView last first :=
  ⟨same.backend.symm, fun address => (same.lookup address).symm⟩

theorem trans {between : Transaction} (same : SameView first between)
    (rest : SameView between last) : SameView first last :=
  ⟨same.backend.trans rest.backend,
    fun address => (same.lookup address).trans (rest.lookup address)⟩

theorem address (same : SameView first last) (table : Table) (key : String) :
    first.address table key = last.address table key := by
  rw [Transaction.address, same.backend, Transaction.address]

theorem get (same : SameView first last) (table : Table) (key : String) :
    first.get table key = last.get table key := by
  rw [get_eq, get_eq, same.backend, same.address, same.lookup]

theorem stage (same : SameView first last) (target : Table × String)
    (written : Option StoredEntry) :
    SameView { first with staged := first.staged.insert target written }
      { last with staged := last.staged.insert target written } := by
  refine ⟨same.backend, fun address => ?_⟩
  have shown := same.lookup address
  simp only [lookup?] at shown ⊢
  by_cases met : target = address
  · simp only [Dictionary.get?_insert, if_pos met]
  · simpa only [Dictionary.get?_insert, if_neg met] using shown

theorem put (same : SameView first last) (table : Table) (key : String) (value : Bytes) :
    Except.Agree SameView (first.put table key value) (last.put table key value) := by
  rw [put_eq, put_eq, same.backend, same.address]
  exact (Except.Agree.of_eq rfl).map fun _ _ _ => same.stage _ _

theorem delete (same : SameView first last) (table : Table) (key : String) :
    Except.Agree (fun result twin => result.1 = twin.1 ∧ SameView result.2 twin.2)
      (first.delete table key) (last.delete table key) := by
  rw [delete_eq, delete_eq, same.backend, same.address, same.lookup]
  exact (Except.Agree.of_eq rfl).map fun _ _ _ => ⟨rfl, same.stage _ _⟩

theorem readState (same : SameView first last) : first.readState = last.readState := by
  rw [Transaction.readState, same.get, Transaction.readState]

end SameView

theorem sameView_put_again {work next again : Transaction} {table : Table} {key : String}
    {value : Bytes} {seen : Transaction} (done : work.put table key value = .ok next)
    (same : seen.SameView next) (repeated : seen.put table key value = .ok again) :
    again.SameView next := by
  have backend : next.base.backend = work.base.backend := by rw [base_put done]
  refine ⟨by rw [base_put repeated, same.backend], fun address => ?_⟩
  rw [lookup?_put repeated, same.address, same.lookup, lookup?_put done, Transaction.address,
    backend, ← Transaction.address]
  split <;> rfl

end Transaction

theorem Partition.mem_entriesOf_iff {store : Partition} {table : Table} {entry : StoredEntry} :
    entry ∈ store.entriesOf table ↔ ∃ place, store.begin.lookup? (table, place) = some entry := by
  constructor
  · intro member
    obtain ⟨⟨⟨owner, place⟩, found⟩, listed, same⟩ := List.mem_filterMap.mp member
    simp only [Option.ite_none_right_eq_some, Option.some.injEq] at same
    obtain ⟨rfl, rfl⟩ := same
    exact ⟨place, (store.entries.mem_entries_iff).mp listed⟩
  · rintro ⟨place, found⟩
    exact List.mem_filterMap.mpr ⟨((table, place), entry), (store.entries.mem_entries_iff).mpr found,
      if_pos rfl⟩

theorem Partition.exists_lookup {store : Partition} {table : Table} {entry : StoredEntry}
    (member : entry ∈ store.entriesOf table) :
    ∃ place, store.begin.lookup? (table, place) = some entry :=
  mem_entriesOf_iff.mp member

/-- Stores with the same tables, read as maps. -/
structure Partition.SameContents (first last : Partition) : Prop where
  backend : first.backend = last.backend
  entries : ∀ address, first.entries.get? address = last.entries.get? address

namespace Partition.SameContents

variable {first last between : Partition}

theorem refl (store : Partition) : SameContents store store := ⟨rfl, fun _ => rfl⟩

theorem symm (same : SameContents first last) : SameContents last first :=
  ⟨same.backend.symm, fun address => (same.entries address).symm⟩

theorem trans (same : SameContents first between) (rest : SameContents between last) :
    SameContents first last :=
  ⟨same.backend.trans rest.backend,
    fun address => (same.entries address).trans (rest.entries address)⟩

theorem begin (same : SameContents first last) : first.begin.SameView last.begin :=
  ⟨same.backend, same.entries⟩

theorem readState (same : SameContents first last) : first.readState = last.readState := by
  simp only [Partition.readState, read, same.backend, same.entries]

end Partition.SameContents

namespace Transaction

variable {first last : Transaction}

theorem SameView.commit (same : SameView first last) :
    Partition.SameContents first.commit last.commit :=
  ⟨same.backend, fun address => by rw [entries_commit, entries_commit, same.lookup]⟩

theorem SameView.contents {first last : Partition} (same : first.begin.SameView last.begin) :
    first.SameContents last :=
  ⟨same.backend, same.lookup⟩

/-- Once a transaction is committed, everybody reads what it read. -/
theorem read_commit (work : Transaction) (table : Table) (key : String) :
    work.commit.read table key = work.get table key := by
  simp only [Partition.read, entries_commit]
  rfl

theorem sameView_begin_commit (work : Transaction) : SameView work.commit.begin work :=
  ⟨rfl, entries_commit work⟩

end Transaction

end DocumentReplication
