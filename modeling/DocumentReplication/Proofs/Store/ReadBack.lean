import DocumentReplication.Proofs.Store.View

/-!
Whatever is written to a store is read back: a record that a store can hold has octets, a transaction
puts them under any key the store takes, and they decode to the record, within the transaction and
after it was committed.
-/

namespace DocumentReplication.Stored

/-- Every record is read back as it was written, from its octets alone and from octets that others
follow: the moments in it may be any of the calendar's range, and a table of etags is written in the
order of its entries, whatever that is. The only condition is that eight octets count each of its
parts. -/
theorem written_read_back {ρ : Type} [Stored ρ] {record : ρ}
    (fits : (layout ρ).Fits (values record)) :
    ∃ bytes, octets record = .ok bytes ∧
      (∀ following, decode (bytes ++ following) = .ok record) ∧
      ∀ (work : Transaction) (table : Table) (key : String),
        work.base.backend.checkKey key = .ok () →
          ∃ next, work.put table key bytes = .ok next ∧ next.get table key = .ok (some bytes) ∧
            next.commit.read table key = .ok (some bytes) := by
  refine ⟨encode record, octets_eq_ok_iff.mpr ⟨fits, rfl⟩, decode_encode_append fits, ?_⟩
  intro work table key allowed
  obtain ⟨next, done⟩ := Transaction.exists_put allowed table (encode record)
  have shown := Transaction.get_put done
  exact ⟨next, done, shown, by rw [Transaction.read_commit, shown]⟩

/-- A range from the first moment of the calendar to its last leap second. -/
def wholeCalendar : DeletedRangeRecord :=
  ⟨"users/Ä", "pulse", "Users", ⟨Timestamp.minMillis, false, by decide⟩,
    ⟨Timestamp.maxMillis, true, by decide⟩, "A:5-db"⟩

theorem written_read_back_wholeCalendar :
    (layout DeletedRangeRecord).Fits (values wholeCalendar) ∧
      ∃ bytes, octets wholeCalendar = .ok bytes ∧
        (∀ following, decode (bytes ++ following) = .ok wholeCalendar) ∧
        ∀ (work : Transaction) (table : Table) (key : String),
          work.base.backend.checkKey key = .ok () →
            ∃ next, work.put table key bytes = .ok next ∧ next.get table key = .ok (some bytes) ∧
              next.commit.read table key = .ok (some bytes) := by
  have fits : (layout DeletedRangeRecord).Fits (values wholeCalendar) := by decide +kernel
  exact ⟨fits, written_read_back fits⟩

end DocumentReplication.Stored
