import DocumentReplication.Proofs.ChangeVector.Join

/-!
Change vectors as a join semilattice. Vectors are compared by what they know, so the order of their
entries and the tags on them do not count: equal vectors are those that cover each other, a merged
vector is the least that covers both of its parts, and the standing of a change is read off the order.
-/

namespace DocumentReplication.ChangeVector

variable {vector other twin copy incoming stored : ChangeVector}

/-- Equal vectors know the same etags. An instance that only one of them knows sets them apart, also
where its etag is 0. -/
theorem equiv_iff_etagFor :
    vector.equiv other = true ↔ ∀ name, vector.etagFor name = other.etagFor name := by
  refine ⟨fun same name => ?_, equiv_of_etagFor_eq⟩
  simp only [equiv, Bool.and_eq_true, beq_iff_eq, List.all_eq_true] at same
  obtain ⟨sizes, known⟩ := same
  cases found : vector.etagFor name with
  | some etag =>
      obtain ⟨entry, listed, rfl, rfl⟩ := etagFor_eq_some_iff.mp found
      exact (known entry listed).symm
  | none =>
      -- There are as many names on both sides, so the second vector has no others.
      have names := (List.subperm_of_subset vector.distinct (instanceIds_subset known)).perm_of_length_le
        (by simp only [List.length_map, sizes, Nat.le_refl])
      refine (etagFor_eq_none_iff.mpr fun entry listed named => ?_).symm
      obtain ⟨twin, there, same⟩ :=
        List.mem_map.mp (names.mem_iff.mpr (List.mem_map.mpr ⟨entry, listed, named⟩))
      exact etagFor_eq_none_iff.mp found twin there same

theorem equivalence_equiv : Equivalence fun vector other : ChangeVector => vector.equiv other = true where
  refl _ := equiv_iff_etagFor.mpr fun _ => rfl
  symm same := equiv_iff_etagFor.mpr fun name => (equiv_iff_etagFor.mp same name).symm
  trans same next := equiv_iff_etagFor.mpr fun name =>
    (equiv_iff_etagFor.mp same name).trans (equiv_iff_etagFor.mp next name)

/-- Vectors that cover each other are equal. -/
theorem equiv_of_covers (first : vector.covers other = true) (second : other.covers vector = true) :
    vector.equiv other = true :=
  equiv_of_etagFor_eq ((isJoin_self vector).etagFor_eq ((isJoin_self vector).of_covers second first))

/-- The order does not tell equal vectors apart. -/
theorem covers_congr (first : vector.equiv twin = true) (second : other.equiv copy = true) :
    vector.covers other = twin.covers copy := by
  rw [Bool.eq_iff_iff, covers_iff, covers_iff]
  simp only [equiv_iff_etagFor.mp first, equiv_iff_etagFor.mp second]

theorem covers_of_equiv (same : vector.equiv other = true) : vector.covers other = true := by
  rw [covers_congr same (equivalence_equiv.refl other)]
  exact covers_refl other

theorem merge_comm (vector other : ChangeVector) :
    (vector.merge other).equiv (other.merge vector) = true :=
  equiv_of_covers (covers_merge (covers_merge_right ..) (covers_merge_left ..))
    (covers_merge (covers_merge_right ..) (covers_merge_left ..))

theorem merge_assoc (vector other third : ChangeVector) :
    ((vector.merge other).merge third).equiv (vector.merge (other.merge third)) = true := by
  have first := covers_merge_left (vector.merge other) third
  have last := covers_merge_right vector (other.merge third)
  refine equiv_of_covers (covers_merge ?_ (covers_merge ?_ ?_))
    (covers_merge (covers_merge ?_ ?_) ?_)
  · exact covers_trans first (covers_merge_left ..)
  · exact covers_trans first (covers_merge_right ..)
  · exact covers_merge_right ..
  · exact covers_merge_left ..
  · exact covers_trans last (covers_merge_left ..)
  · exact covers_trans last (covers_merge_right ..)

theorem merge_self (vector : ChangeVector) : vector.merge vector = vector :=
  merge_of_covers (covers_refl vector)

theorem compare_eq_alreadyMerged_iff :
    incoming.compare stored = .alreadyMerged ↔ stored.covers incoming = true := by
  by_cases known : stored.covers incoming = true <;>
    by_cases newer : incoming.covers stored = true <;> simp [compare, known, newer]

theorem compare_eq_update_iff :
    incoming.compare stored = .update ↔
      incoming.covers stored = true ∧ ¬ stored.covers incoming = true := by
  by_cases known : stored.covers incoming = true <;>
    by_cases newer : incoming.covers stored = true <;> simp [compare, known, newer]

theorem compare_eq_conflict_iff :
    incoming.compare stored = .conflict ↔
      ¬ incoming.covers stored = true ∧ ¬ stored.covers incoming = true := by
  by_cases known : stored.covers incoming = true <;>
    by_cases newer : incoming.covers stored = true <;> simp [compare, known, newer]

theorem compare_congr (first : incoming.equiv twin = true) (second : stored.equiv copy = true) :
    incoming.compare stored = twin.compare copy := by
  rw [compare, compare, covers_congr first second, covers_congr second first]

section

variable {keep : String → Bool} {seen : VectorEntry} {entries : List VectorEntry}

theorem filter_absorbEntry_of_kept (kept : keep seen.instanceId = true) :
    (absorbEntry entries seen).filter (fun entry => keep entry.instanceId) =
      absorbEntry (entries.filter fun entry => keep entry.instanceId) seen := by
  have present : (entries.filter fun entry => keep entry.instanceId).any
      (·.instanceId == seen.instanceId) = entries.any (·.instanceId == seen.instanceId) := by
    rw [List.any_filter]
    congr 1
    funext entry
    by_cases same : entry.instanceId = seen.instanceId <;> simp [same, kept]
  unfold absorbEntry
  rw [present]
  split
  · rw [List.filter_map, comp_advance keep]
  · simp [List.filter_append, kept]

theorem filter_absorbEntry_of_removed (removed : keep seen.instanceId = false) :
    (absorbEntry entries seen).filter (fun entry => keep entry.instanceId) =
      entries.filter fun entry => keep entry.instanceId := by
  unfold absorbEntry
  split
  · rw [List.filter_map, comp_advance keep]
    refine (List.map_congr_left fun entry member => ?_).trans (List.map_id _)
    -- The entry that advances is not among those that are left.
    have left : keep entry.instanceId = true := (List.mem_filter.mp member).2
    refine if_neg fun same => ?_
    rw [same, removed] at left
    contradiction
  · simp [List.filter_append, removed]

theorem filter_absorb (keep : String → Bool) (vector : ChangeVector) (seen : VectorEntry) :
    (vector.absorb seen).filter (fun entry => keep entry.instanceId) =
      if keep seen.instanceId then (vector.filter fun entry => keep entry.instanceId).absorb seen
      else vector.filter fun entry => keep entry.instanceId := by
  split
  · rename_i kept
    exact ext_entries (filter_absorbEntry_of_kept kept)
  · rename_i removed
    exact ext_entries (filter_absorbEntry_of_removed ((Bool.not_eq_true _).mp removed))

theorem filter_foldl_absorb (keep : String → Bool) (entries : List VectorEntry)
    (vector : ChangeVector) :
    (entries.foldl absorb vector).filter (fun entry => keep entry.instanceId) =
      (entries.filter fun entry => keep entry.instanceId).foldl absorb
        (vector.filter fun entry => keep entry.instanceId) := by
  induction entries generalizing vector with
  | nil => rfl
  | cons seen rest ih =>
      rw [List.foldl_cons, ih, filter_absorb, List.filter_cons]
      split <;> rfl

end

/-- It makes no difference whether instances are removed before or after merging. -/
theorem without_merge (ignored : List String) (vector other : ChangeVector) :
    (vector.merge other).without ignored = (vector.without ignored).merge (other.without ignored) :=
  filter_foldl_absorb (fun name => !ignored.contains name) other.entries vector

/-- An equality, an order and a join that behave as those of a join semilattice do, up to the
equality. -/
structure IsJoinSemilattice {α : Type} (same above : α → α → Prop) (join : α → α → α) : Prop where
  equivalence : Equivalence same
  refl : ∀ a, above a a
  trans : ∀ a b c, above a b → above b c → above a c
  antisymm : ∀ a b, above a b → above b a → same a b
  above_of_same : ∀ a b, same a b → above a b
  above_left : ∀ a b, above (join a b) a
  above_right : ∀ a b, above (join a b) b
  least : ∀ a b c, above c a → above c b → above c (join a b)
  comm : ∀ a b, same (join a b) (join b a)
  assoc : ∀ a b c, same (join (join a b) c) (join a (join b c))
  idem : ∀ a, same (join a a) a

theorem isJoinSemilattice :
    IsJoinSemilattice (fun vector other : ChangeVector => vector.equiv other = true)
      (fun vector other => vector.covers other = true) merge where
  equivalence := equivalence_equiv
  refl := covers_refl
  trans _ _ _ := covers_trans
  antisymm _ _ := equiv_of_covers
  above_of_same _ _ := covers_of_equiv
  above_left := covers_merge_left
  above_right := covers_merge_right
  least _ _ _ := covers_merge
  comm := merge_comm
  assoc := merge_assoc
  idem vector := by
    rw [merge_self]
    exact equivalence_equiv.refl vector

/-- Change vectors are a join semilattice under merging, in which an instance has the greater of its
etags, and comparing two of them reads off its order: a change is merged already if what is stored
covers it, an update if it strictly covers what is stored, and in conflict if neither covers the
other. Removing instances commutes with merging. -/
theorem vectors_joinSemilattice :
    IsJoinSemilattice (fun vector other : ChangeVector => vector.equiv other = true)
      (fun vector other => vector.covers other = true) merge ∧
    (∀ vector other : ChangeVector,
      ((vector.merge other).entries.map (·.instanceId)).Nodup ∧
      ∀ name, (vector.merge other).etagFor name =
        greater (vector.etagFor name) (other.etagFor name)) ∧
    (∀ incoming stored : ChangeVector,
      (incoming.compare stored = .alreadyMerged ↔ stored.covers incoming = true) ∧
      (incoming.compare stored = .update ↔
        incoming.covers stored = true ∧ ¬ stored.covers incoming = true) ∧
      (incoming.compare stored = .conflict ↔
        ¬ incoming.covers stored = true ∧ ¬ stored.covers incoming = true)) ∧
    (∀ incoming twin stored copy : ChangeVector, incoming.equiv twin = true →
      stored.equiv copy = true → incoming.compare stored = twin.compare copy) ∧
    ∀ (ignored : List String) (vector other : ChangeVector),
      (vector.merge other).without ignored =
        (vector.without ignored).merge (other.without ignored) :=
  ⟨isJoinSemilattice, fun vector other => ⟨(vector.merge other).distinct, etagFor_merge vector other⟩,
    fun _ _ => ⟨compare_eq_alreadyMerged_iff, compare_eq_update_iff, compare_eq_conflict_iff⟩,
    fun _ _ _ _ => compare_congr, without_merge⟩

end DocumentReplication.ChangeVector
