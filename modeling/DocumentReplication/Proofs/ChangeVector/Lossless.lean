import DocumentReplication.Proofs.ChangeVector.Entries
import DocumentReplication.Proofs.ChangeVector.Text

/-!
The text form of a change vector loses nothing. Whatever is made of vectors that were read, by merging
them, stripping them and removing instances, is read back entry by entry from its text.
-/

namespace DocumentReplication.ChangeVector

variable {vector incoming : ChangeVector} {text : String}

/-- Vectors that come from texts. -/
inductive Obtained : ChangeVector → Prop
  | parsed {text : String} {vector : ChangeVector} : parse text = .ok vector → Obtained vector
  | merged {vector incoming : ChangeVector} : Obtained vector → Obtained incoming →
      Obtained (vector.merge incoming)
  | stripped {vector : ChangeVector} : Obtained vector → Obtained vector.withoutTransactional
  | removed {vector : ChangeVector} (ignored : List String) : Obtained vector →
      Obtained (vector.without ignored)

theorem Obtained.legible (obtained : vector.Obtained) : vector.Legible := by
  induction obtained with
  | parsed found => exact legible_of_parse found
  | merged _ _ first second => exact first.merge second
  | stripped _ ih => exact ih.withoutTransactional
  | removed ignored _ ih => exact ih.without ignored

/-- A vector that comes from texts has one entry for each instance, with an etag that is not negative,
and is read back from its own text as it is. What is merged into it advances its entries in place and
adds the instances it did not know at the end. -/
theorem Obtained.text_lossless (obtained : vector.Obtained) :
    (vector.entries.map (·.instanceId)).Nodup ∧
      (∀ entry ∈ vector.entries,
        0 ≤ entry.etag.toInt ∧ entry.etag.toInt ≤ Int64.maxValue.toInt) ∧
      parse vector.text = .ok vector ∧
      ∀ incoming : ChangeVector, (vector.merge incoming).entries =
        vector.entries.map (advanceBy incoming.entries) ++
          incoming.entries.filter fun seen => !vector.names seen.instanceId := by
  have legible := obtained.legible
  refine ⟨vector.distinct, fun entry member => ⟨(legible entry member).etagNonneg, ?_⟩,
    parse_text legible, entries_merge vector⟩
  exact Int64.toInt_le entry.etag

/-- Two texts that share an instance whose id has a colon, a dash and a blank in it. -/
def loosely : String × String :=
  (" RV:007-a:b-c d ,\tTRXN:9223372036854775807-x", "B :9-a:b-c d,C:0-\u00e9 z,D:1-gone")

theorem text_lossless_loosely :
    ∃ first second vector, parse loosely.1 = .ok first ∧ parse loosely.2 = .ok second ∧
      vector = (first.merge second).withoutTransactional.without ["gone"] ∧ vector.Obtained ∧
      vector.text = "B :9-a:b-c d, C:0-\u00e9 z" ∧
      (vector.entries.map (·.instanceId)).Nodup ∧
      (∀ entry ∈ vector.entries,
        0 ≤ entry.etag.toInt ∧ entry.etag.toInt ≤ Int64.maxValue.toInt) ∧
      parse vector.text = .ok vector ∧
      ∀ incoming : ChangeVector, (vector.merge incoming).entries =
        vector.entries.map (advanceBy incoming.entries) ++
          incoming.entries.filter fun seen => !vector.names seen.instanceId := by
  have written : (do
      let first ← parse loosely.1
      let second ← parse loosely.2
      return ((first.merge second).withoutTransactional.without ["gone"]).text) =
        Except.ok "B :9-a:b-c d, C:0-\u00e9 z" := by decide +kernel
  obtain ⟨first, firstRead, written⟩ := Except.bind_eq_ok_iff.mp written
  obtain ⟨second, secondRead, written⟩ := Except.bind_eq_ok_iff.mp written
  have obtained := ((Obtained.parsed firstRead).merged (.parsed secondRead)).stripped.removed ["gone"]
  exact ⟨first, second, _, firstRead, secondRead, rfl, obtained, Except.ok.inj written,
    obtained.text_lossless⟩

end DocumentReplication.ChangeVector
