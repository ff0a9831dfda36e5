import DocumentReplication.Proofs.Commit.History

/-!
Transactional entries never reach a store. Vectors that come in are stripped of them, and what is
merged with a stored vector has none if the stored vector has none.
-/

namespace DocumentReplication

open Work

variable {change : Change} {payloads : Dictionary String Bytes} {ignored : List String}
  {work before after first last : Transaction} {vector : ChangeVector}

/-- No record has a vector with transactional entries. -/
def Transaction.Stripped (work : Transaction) : Prop :=
  ∀ address entry, work.lookup? address = some entry → address.1 ≠ .state →
    ∀ record, address.1.decode entry.value = .ok record →
      ∀ vector, ChangeVector.parse (address.1.vectorOf record) = .ok vector →
        vector.withoutTransactional = vector

namespace Transaction.Stripped

theorem sameView (stripped : first.Stripped) (same : first.SameView last) : last.Stripped := by
  intro address entry found
  rw [← same.lookup] at found
  exact stripped address entry found

theorem vectorAt {table : Table} {key text : String} (stripped : work.Stripped)
    (record : table ≠ .state) (found : work.vectorAt table key = .ok (some text))
    (parsed : ChangeVector.parse text = .ok vector) : vector.withoutTransactional = vector := by
  obtain ⟨bytes, read, found⟩ := Except.bind_eq_ok_iff.mp found
  cases bytes with
  | none => cases found
  | some bytes =>
      obtain ⟨content, decoded, same⟩ := Except.bind_eq_ok_iff.mp found
      cases same
      obtain ⟨entry, present, rfl⟩ :=
        Option.map_eq_some_iff.mp (Transaction.get_eq_ok_iff.mp read).2
      exact stripped _ entry present record content decoded vector parsed

theorem homeVector {home : Table} {key text : String} (stripped : work.Stripped)
    (records : home ≠ .state) (found : work.homeVector home key = .ok (some text))
    (parsed : ChangeVector.parse text = .ok vector) : vector.withoutTransactional = vector := by
  cases home <;> simp only [Transaction.homeVector] at found
  case documents =>
    obtain ⟨document, read, found⟩ := Except.bind_eq_ok_iff.mp found
    cases document with
    | some known =>
        cases found
        exact stripped.vectorAt (by decide) read parsed
    | none => exact stripped.vectorAt (by decide) found parsed
  all_goals exact stripped.vectorAt records found parsed

theorem vector_of_raises (stripped : before.Stripped)
    (raises : change.Raises ignored before vector) : vector.Storable ignored := by
  have same := raises.stripped fun text stored found parsed =>
    stripped.homeVector change.home_ne_state found parsed
  intro entry member
  exact ⟨ChangeVector.isTransactional_of_stripped same entry member,
    ChangeVector.countIn_eq_zero_iff.mp raises.plain entry member⟩

theorem applied {result : Option ChangeVector} (stripped : before.Stripped)
    (applied : change.Applied payloads ignored before after result) : after.Stripped := by
  cases applied with
  | known => exact stripped
  | written raises provides writes =>
      intro address entry found records record decoded read parsed
      rcases writes.lookup_cases found with earlier | ⟨made, -, rfl⟩
      · rcases provides.lookup_cases earlier with old | ⟨blob, -, -, rfl⟩
        · exact stripped address entry old records record decoded read parsed
        · cases parsed
          rfl
      · obtain ⟨twin, twinDecoded, same⟩ := Change.decode_record? made
        obtain rfl : twin = record := Except.ok.inj (twinDecoded.symm.trans decoded)
        change ChangeVector.parse (change.table.vectorOf twin) = .ok read at parsed
        rw [same, ChangeVector.parse_text raises.legible] at parsed
        cases parsed
        exact (stripped.vector_of_raises raises).withoutTransactional

end Transaction.Stripped

theorem Transaction.kept_stripped :
    Transaction.Kept (fun _ => True) ignored Transaction.Stripped where
  view same stripped := stripped.sameView same
  execute _ _ done stripped := by
    obtain ⟨stored, previous, started, applied, text, record, executed⟩ :=
      Slice.attempt_execute_iff.mp done
    have kept : applied.transaction.Stripped :=
      executed.changes_keep Transaction.Stripped (fun _ _ _ _ _ step held => held.applied step)
        stripped
    intro address entry found records
    rw [Transaction.lookup?_put executed.put] at found
    split at found
    · rename_i same
      exact absurd (congrArg Prod.fst same).symm records
    · exact kept address entry found records

theorem Partition.stripped_create (backend : Backend) : (create backend).begin.Stripped := by
  intro address entry found
  cases found

theorem Partition.stripped_transact {slice : Slice} {store next : Partition}
    {outcome : SliceOutcome} (stripped : store.begin.Stripped)
    (done : Scheduler.transact ignored slice.execute store = .ok (outcome, next)) :
    next.begin.Stripped :=
  Transaction.kept_stripped.transact trivial done stripped

end DocumentReplication
