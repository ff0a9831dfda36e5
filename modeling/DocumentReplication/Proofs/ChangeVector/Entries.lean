import DocumentReplication.ChangeVector

/-!
The entries of a merged vector, one by one: those of the first vector in their order, each advanced by
the entry of its instance in the second, and then what only the second has, in its order.
-/

namespace DocumentReplication.ChangeVector

variable {vector other incoming : ChangeVector} {entries : List VectorEntry}
  {entry seen : VectorEntry}

theorem ext_entries (same : vector.entries = other.entries) : vector = other := by
  obtain ⟨entries, _⟩ := vector
  obtain ⟨_, _⟩ := other
  cases same
  rfl

/-- Instances are distinct, so no earlier entry is found in place of one that is there. -/
theorem find?_instanceId (distinct : (entries.map (·.instanceId)).Nodup) (member : entry ∈ entries) :
    entries.find? (·.instanceId == entry.instanceId) = some entry := by
  induction entries with
  | nil => contradiction
  | cons first rest ih =>
      simp only [List.map_cons, List.nodup_cons] at distinct
      rcases List.mem_cons.mp member with rfl | later
      · simp
      · have different : first.instanceId ≠ entry.instanceId := fun same =>
          distinct.1 (same ▸ List.mem_map_of_mem later)
        simp [different, ih distinct.2 later]

/-- Entries advance in place, under the names they had. -/
theorem comp_advance {α : Type} (look : String → α) (seen : VectorEntry) :
    ((fun entry : VectorEntry => look entry.instanceId) ∘ fun entry =>
      if entry.instanceId = seen.instanceId then entry.advance seen else entry) =
        fun entry => look entry.instanceId := by
  funext entry
  simp only [Function.comp_apply]
  split <;> simp

/-- An entry after the entry of its instance among others was seen. -/
def advanceBy (entries : List VectorEntry) (entry : VectorEntry) : VectorEntry :=
  (entries.find? (·.instanceId == entry.instanceId)).elim entry entry.advance

theorem advanceBy_cons :
    advanceBy (seen :: entries) entry =
      if seen.instanceId = entry.instanceId then entry.advance seen else advanceBy entries entry := by
  unfold advanceBy
  by_cases same : seen.instanceId = entry.instanceId
  · rw [List.find?_cons_of_pos (by simpa using same), if_pos same, Option.elim_some]
  · rw [List.find?_cons_of_neg (by simpa using same), if_neg same]

theorem advanceBy_of_mem (distinct : (entries.map (·.instanceId)).Nodup) (member : seen ∈ entries)
    (same : seen.instanceId = entry.instanceId) : advanceBy entries entry = entry.advance seen := by
  rw [advanceBy, ← same, find?_instanceId distinct member, Option.elim_some]

theorem advanceBy_of_absent (absent : ∀ seen ∈ entries, seen.instanceId ≠ entry.instanceId) :
    advanceBy entries entry = entry := by
  have none : entries.find? (·.instanceId == entry.instanceId) = none :=
    List.find?_eq_none.mpr fun seen member => by simpa using absent seen member
  rw [advanceBy, none, Option.elim_none]

/-- Whether a vector has an entry of an instance. -/
def names (vector : ChangeVector) (name : String) : Bool :=
  vector.entries.any (·.instanceId == name)

theorem names_absorb (vector : ChangeVector) (seen : VectorEntry) (name : String) :
    (vector.absorb seen).names name = (vector.names name || seen.instanceId == name) := by
  unfold names absorb absorbEntry
  split
  · rename_i known
    rw [List.any_map, comp_advance (· == name)]
    by_cases same : seen.instanceId = name
    · rw [same] at known
      rw [known, Bool.true_or]
    · rw [beq_eq_false_iff_ne.mpr same, Bool.or_false]
  · rw [List.any_append, List.any_cons, List.any_nil, Bool.or_false]

/-- One entry after the other comes to the same as all of them at once. -/
theorem entries_foldl_absorb (distinct : (entries.map (·.instanceId)).Nodup)
    (vector : ChangeVector) :
    (entries.foldl absorb vector).entries = vector.entries.map (advanceBy entries) ++
      entries.filter fun seen => !vector.names seen.instanceId := by
  induction entries generalizing vector with
  | nil =>
      have unchanged : advanceBy [] = id := rfl
      rw [List.foldl_nil, unchanged, List.map_id, List.filter_nil, List.append_nil]
  | cons first rest ih =>
      simp only [List.map_cons, List.nodup_cons] at distinct
      have different : ∀ seen ∈ rest, seen.instanceId ≠ first.instanceId := fun seen member same =>
        distinct.1 (same ▸ List.mem_map_of_mem member)
      have fresh : (rest.filter fun seen => !(vector.absorb first).names seen.instanceId) =
          rest.filter fun seen => !vector.names seen.instanceId := by
        refine List.filter_congr fun seen member => ?_
        rw [names_absorb, beq_eq_false_iff_ne.mpr (different seen member).symm, Bool.or_false]
      rw [List.foldl_cons, ih distinct.2, fresh, List.filter_cons]
      by_cases known : vector.names first.instanceId = true
      · have absorbed : (vector.absorb first).entries = vector.entries.map fun entry =>
            if entry.instanceId = first.instanceId then entry.advance first else entry := if_pos known
        rw [absorbed, List.map_map, known, if_neg (by decide)]
        refine congrArg (· ++ _) (List.map_congr_left fun entry _ => ?_)
        rw [Function.comp_apply, advanceBy_cons]
        by_cases same : entry.instanceId = first.instanceId
        · -- No later entry is of the same instance.
          rw [if_pos same, if_pos same.symm]
          refine advanceBy_of_absent fun seen member => ?_
          rw [VectorEntry.advance_instanceId, same]
          exact different seen member
        · rw [if_neg same, if_neg (Ne.symm same)]
      · have absorbed : (vector.absorb first).entries = vector.entries ++ [first] := if_neg known
        rw [absorbed, List.map_append, List.map_singleton, advanceBy_of_absent different,
          (Bool.not_eq_true _).mp known, Bool.not_false, if_pos rfl, List.append_assoc,
          List.singleton_append]
        refine congrArg (· ++ _) (List.map_congr_left fun entry member => ?_)
        have other : first.instanceId ≠ entry.instanceId := fun same =>
          known (List.any_eq_true.mpr ⟨entry, member, beq_iff_eq.mpr same.symm⟩)
        rw [advanceBy_cons, if_neg other]

theorem entries_merge (vector incoming : ChangeVector) :
    (vector.merge incoming).entries = vector.entries.map (advanceBy incoming.entries) ++
      incoming.entries.filter fun seen => !vector.names seen.instanceId :=
  entries_foldl_absorb incoming.distinct vector

@[simp] theorem empty_merge (vector : ChangeVector) : empty.merge vector = vector := by
  apply ext_entries
  rw [entries_merge]
  exact List.filter_eq_self.mpr fun _ _ => rfl

/-- What holds of every entry of both parts holds of the merged entries, provided that an entry that
advances keeps it. -/
theorem forall_mem_merge {holds : VectorEntry → Prop}
    (advanced : ∀ entry seen : VectorEntry, holds entry → holds seen →
      entry.instanceId = seen.instanceId → holds (entry.advance seen))
    (first : ∀ entry ∈ vector.entries, holds entry)
    (second : ∀ entry ∈ incoming.entries, holds entry) :
    ∀ entry ∈ (vector.merge incoming).entries, holds entry := by
  intro entry member
  rw [entries_merge] at member
  rcases List.mem_append.mp member with found | added
  · obtain ⟨old, known, rfl⟩ := List.mem_map.mp found
    by_cases listed : ∃ seen ∈ incoming.entries, seen.instanceId = old.instanceId
    · obtain ⟨seen, there, same⟩ := listed
      rw [advanceBy_of_mem incoming.distinct there same]
      exact advanced old seen (first old known) (second seen there) same.symm
    · rw [advanceBy_of_absent fun seen there same => listed ⟨seen, there, same⟩]
      exact first old known
  · exact second entry (List.mem_filter.mp added).1

end DocumentReplication.ChangeVector
