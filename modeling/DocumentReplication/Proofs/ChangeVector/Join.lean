import DocumentReplication.Proofs.ChangeVector.Order
import Mathlib.Data.List.Perm.Subperm

/-!
Joins of change vectors. A join of some vectors covers all of them and has no etag that none of them
has, so it takes the greatest etag of every instance. As vectors are compared there is only one join of
the same vectors, whatever order they came in.
-/

namespace DocumentReplication.ChangeVector

variable {vector other third incoming stored part : ChangeVector} {ignored : List String}
  {among others : ChangeVector → Prop} {name : String} {etag : Int64}

/-- The per-instance maximum of some vectors. -/
structure IsJoin (vector : ChangeVector) (among : ChangeVector → Prop) : Prop where
  covers : ∀ part, among part → vector.covers part = true
  reached : ∀ name etag, vector.etagFor name = some etag →
    ∃ part, among part ∧ part.etagFor name = some etag

theorem eq_or_eq_of_greater {first last : Option Int64} (found : greater first last = some etag) :
    first = some etag ∨ last = some etag := by
  cases first with
  | none => exact .inr found
  | some one =>
      cases last with
      | none => exact .inl found
      | some two =>
          simp only [greater, max_eq] at found
          split at found
          · exact .inr found
          · exact .inl found

theorem etagFor_of_merge (found : (vector.merge incoming).etagFor name = some etag) :
    vector.etagFor name = some etag ∨ incoming.etagFor name = some etag := by
  rw [etagFor_merge] at found
  exact eq_or_eq_of_greater found

theorem covers_merge (first : third.covers vector = true) (second : third.covers incoming = true) :
    third.covers (vector.merge incoming) = true := by
  apply covers_iff.mpr
  intro name etag found
  rcases etagFor_of_merge found with one | two
  · exact covers_iff.mp first name etag one
  · exact covers_iff.mp second name etag two

/-- What covers both a change and what is stored covers what the change is written with. -/
theorem covers_settled {written : ChangeVector} (settled : incoming.settle stored = some written)
    (first : vector.covers incoming = true) (second : vector.covers stored = true) :
    vector.covers written = true := by
  rcases settle_cases settled with ⟨rfl, -⟩ | rfl
  · exact first
  · exact covers_merge first second

/-- A change that knows all that is stored is written as it is. -/
theorem eq_of_settle {written : ChangeVector} (settled : incoming.settle stored = some written)
    (newer : incoming.covers stored = true) : written = incoming := by
  have unknown : ¬ stored.covers incoming = true := by
    rw [← settle_eq_none_iff, settled]
    exact nofun
  simp only [settle, compare, if_neg unknown, if_pos newer, Option.some.injEq] at settled
  exact settled.symm

theorem isJoin_self (vector : ChangeVector) : vector.IsJoin (· = vector) :=
  ⟨fun _ same => same ▸ covers_refl vector, fun _ _ found => ⟨vector, rfl, found⟩⟩

namespace IsJoin

theorem congr (join : vector.IsJoin among) (same : ∀ part, among part ↔ others part) :
    vector.IsJoin others :=
  ⟨fun part member => join.covers part ((same part).mpr member), fun name etag found => by
    obtain ⟨part, member, known⟩ := join.reached name etag found
    exact ⟨part, (same part).mp member, known⟩⟩

theorem merge (first : vector.IsJoin among) (second : incoming.IsJoin others) :
    (vector.merge incoming).IsJoin fun part => among part ∨ others part := by
  refine ⟨fun part member => ?_, fun name etag found => ?_⟩
  · rcases member with one | two
    · exact covers_trans (covers_merge_left vector incoming) (first.covers part one)
    · exact covers_trans (covers_merge_right vector incoming) (second.covers part two)
  · rcases etagFor_of_merge found with one | two
    · obtain ⟨part, member, known⟩ := first.reached name etag one
      exact ⟨part, .inl member, known⟩
    · obtain ⟨part, member, known⟩ := second.reached name etag two
      exact ⟨part, .inr member, known⟩

/-- Vectors that were known all along do not change the join. -/
theorem known (join : vector.IsJoin among)
    (covers : ∀ part, others part → vector.covers part = true) :
    vector.IsJoin fun part => among part ∨ others part := by
  refine ⟨fun part member => member.elim (join.covers part) (covers part), fun name etag found => ?_⟩
  obtain ⟨part, member, reached⟩ := join.reached name etag found
  exact ⟨part, .inl member, reached⟩

/-- A vector that knows the join takes its place. -/
theorem newer (join : vector.IsJoin among) (covers : incoming.covers vector = true) :
    incoming.IsJoin fun part => among part ∨ part = incoming := by
  refine ⟨fun part member => ?_, fun name etag found => ⟨incoming, .inr rfl, found⟩⟩
  rcases member with old | rfl
  · exact covers_trans covers (join.covers part old)
  · exact covers_refl part

/-- A change that is written over the join of earlier ones leaves the join of all. -/
theorem settled {written : ChangeVector} (join : stored.IsJoin among)
    (settled : incoming.settle stored = some written) :
    written.IsJoin fun part => among part ∨ part = incoming := by
  rcases settle_cases settled with ⟨rfl, covers⟩ | rfl
  · exact join.newer covers
  · exact ((isJoin_self incoming).merge join).congr fun part => or_comm

/-- Joins of the same vectors know the same etags. -/
theorem etagFor_eq (first : vector.IsJoin among) (second : other.IsJoin among) (name : String) :
    vector.etagFor name = other.etagFor name := by
  have least (one two : ChangeVector) (join : one.IsJoin among) (upper : two.IsJoin among)
      (etag : Int64) (found : one.etagFor name = some etag) :
      ∃ known, two.etagFor name = some known ∧ etag ≤ known := by
    obtain ⟨part, member, reached⟩ := join.reached name etag found
    exact covers_iff.mp (upper.covers part member) name etag reached
  cases found : vector.etagFor name with
  | some etag =>
      obtain ⟨known, there, below⟩ := least vector other first second etag found
      obtain ⟨twin, again, above⟩ := least other vector second first known there
      obtain rfl : etag = twin := Option.some.inj (found.symm.trans again)
      rw [there, Int64.le_antisymm below above]
  | none =>
      cases there : other.etagFor name with
      | none => rfl
      | some etag =>
          obtain ⟨known, again, -⟩ := least other vector second first etag there
          rw [found] at again
          contradiction

/-- The etag of an instance is the greatest that any of the vectors has. -/
theorem etagFor_eq_some_iff (join : vector.IsJoin among) :
    vector.etagFor name = some etag ↔ (∃ part, among part ∧ part.etagFor name = some etag) ∧
      ∀ part, among part → ∀ known, part.etagFor name = some known → known ≤ etag := by
  constructor
  · intro found
    refine ⟨join.reached name etag found, fun part member known there => ?_⟩
    obtain ⟨greatest, again, below⟩ := covers_iff.mp (join.covers part member) name known there
    rw [found] at again
    cases again
    exact below
  · rintro ⟨⟨part, member, there⟩, greatest⟩
    obtain ⟨known, found, below⟩ := covers_iff.mp (join.covers part member) name etag there
    obtain ⟨top, topMember, reached⟩ := join.reached name known found
    rw [found, Int64.le_antisymm (greatest top topMember known reached) below]

theorem of_covers (join : vector.IsJoin among) (above : other.covers vector = true)
    (below : vector.covers other = true) : other.IsJoin among := by
  refine ⟨fun part member => covers_trans above (join.covers part member), fun name etag found => ?_⟩
  obtain ⟨known, there, le⟩ := covers_iff.mp below name etag found
  obtain ⟨twin, again, ge⟩ := covers_iff.mp above name known there
  obtain rfl : etag = twin := Option.some.inj (found.symm.trans again)
  rw [Int64.le_antisymm le ge]
  exact join.reached name known there

/-- A join of vectors without ignored instances has none either. -/
theorem without (join : vector.IsJoin among)
    (plain : ∀ part, among part → part.countIn ignored = 0) : vector.without ignored = vector := by
  apply without_of_countIn
  apply countIn_eq_zero_iff.mpr
  intro entry member
  obtain ⟨part, amongst, there⟩ := join.reached entry.instanceId entry.etag
    (ChangeVector.etagFor_eq_some_iff.mpr ⟨entry, member, rfl, rfl⟩)
  obtain ⟨twin, inPart, named, -⟩ := ChangeVector.etagFor_eq_some_iff.mp there
  rw [← named]
  exact countIn_eq_zero_iff.mp (plain part amongst) twin inPart

end IsJoin

theorem instanceIds_subset
    (known : ∀ entry ∈ vector.entries, other.etagFor entry.instanceId = some entry.etag) :
    vector.entries.map (·.instanceId) ⊆ other.entries.map (·.instanceId) := by
  intro name member
  obtain ⟨entry, listed, rfl⟩ := List.mem_map.mp member
  obtain ⟨twin, there, named, -⟩ := etagFor_eq_some_iff.mp (known entry listed)
  exact List.mem_map.mpr ⟨twin, there, named⟩

theorem length_le_of_etagFor_eq (same : ∀ name, vector.etagFor name = other.etagFor name) :
    vector.entries.length ≤ other.entries.length := by
  have names := instanceIds_subset fun entry listed =>
    (same entry.instanceId).symm.trans (etagFor_eq_some_iff.mpr ⟨entry, listed, rfl, rfl⟩)
  simpa only [List.length_map] using (List.subperm_of_subset vector.distinct names).length_le

/-- Vectors are equal if they know the same etags. -/
theorem equiv_of_etagFor_eq (same : ∀ name, vector.etagFor name = other.etagFor name) :
    vector.equiv other = true := by
  have sizes : vector.entries.length = other.entries.length :=
    Nat.le_antisymm (length_le_of_etagFor_eq same)
      (length_le_of_etagFor_eq fun name => (same name).symm)
  simp only [equiv, sizes, beq_self_eq_true, Bool.true_and, List.all_eq_true, beq_iff_eq]
  intro entry member
  rw [← same]
  exact etagFor_eq_some_iff.mpr ⟨entry, member, rfl, rfl⟩

end DocumentReplication.ChangeVector
