import DocumentReplication.Proofs.ChangeVector.Text

/-!
Operations on the texts of vectors do to a text what the operations on vectors do to the vector it is
read as, however it is written. A text stands as it is exactly where nothing is taken from its vector.
-/

namespace DocumentReplication.ChangeVector

variable {vector result : ChangeVector} {text : String} {answer : Option String}

/-- An operation on a text answers as one on vectors that takes `vector`, which the text is read as, to
`result`; the answer `none` leaves the text as it is. -/
structure Answers (text : String) (vector result : ChangeVector) (answer : Option String) : Prop where
  read : parse (answer.getD text) = .ok result
  stands : answer = none ↔ result = vector
  unchanged : answer.getD text = text ↔ result = vector

theorem answers_of_text (found : parse text = .ok vector) (legible : result.Legible) {same : Prop}
    [Decidable same] (kept : same ↔ result = vector) :
    Answers text vector result (if same then none else some result.text) := by
  have read : parse ((if same then none else some result.text).getD text) = .ok result :=
    parse_eq_ok_iff.mpr (ofText_getD (parse_eq_ok_iff.mp found) legible kept.mp)
  refine ⟨read, ?_, fun unchanged => ?_, fun same => ?_⟩
  · rw [← kept]
    split <;> simpa
  · rw [unchanged] at read
    exact Except.ok.inj (read.symm.trans found)
  · rw [if_pos (kept.mpr same), Option.getD_none]

theorem countIn_eq_length (vector : ChangeVector) (ignored : List String) :
    vector.countIn ignored =
      (vector.entries.filter fun entry => ignored.contains entry.instanceId).length :=
  List.countP_eq_length_filter

theorem countIn_eq_zero_iff_without {ignored : List String} :
    vector.countIn ignored = 0 ↔ vector.without ignored = vector :=
  ⟨without_of_countIn, fun same => same ▸ countIn_without vector ignored⟩

/-- Every text that is read as a vector is stripped of transactional entries, and of instances, as the
vector is, and so many entries are counted as are of these instances. -/
theorem shortcuts_agree (found : parse text = .ok vector) (ignored : List String) :
    (∃ answer, stripText text = .ok answer ∧
      Answers text vector vector.withoutTransactional answer) ∧
    ∃ answer, removeText ignored text = .ok (answer,
        (vector.entries.filter fun entry => ignored.contains entry.instanceId).length) ∧
      Answers text vector (vector.without ignored) answer := by
  have legible := legible_of_parse found
  have known := parse_eq_ok_iff.mp found
  rw [← countIn_eq_length]
  exact ⟨⟨_, stripText_of_ofText known, answers_of_text found legible.withoutTransactional Iff.rfl⟩,
    ⟨_, removeText_of_ofText known ignored,
      answers_of_text found (legible.without ignored) countIn_eq_zero_iff_without⟩⟩

/-- The tag of transactions stands in an instance and in a longer tag as well. -/
def mentioning : String := "TRXN:1-TRXN, TRXNA:02-b ,A:3-TRXN-a"

theorem shortcuts_agree_mentioning :
    ∃ vector, parse mentioning = .ok vector ∧ vector.entries.length = 3 ∧
      (∃ answer, stripText mentioning = .ok answer ∧
        Answers mentioning vector vector.withoutTransactional answer) ∧
      ∃ answer, removeText ["b", "c"] mentioning = .ok (answer,
          (vector.entries.filter fun entry => ["b", "c"].contains entry.instanceId).length) ∧
        Answers mentioning vector (vector.without ["b", "c"]) answer := by
  have counted : (parse mentioning).map (·.entries.length) = .ok 3 := by decide +kernel
  obtain ⟨vector, found, three⟩ := Except.map_eq_ok_iff.mp counted
  exact ⟨vector, found, three, shortcuts_agree found ["b", "c"]⟩

end DocumentReplication.ChangeVector
