import DocumentReplication.Commit.Resolution
import DocumentReplication.Proofs.ChangeVector.Entries

/-!
The order of change vectors. Under the view `etagFor` a vector is a partial map from instances to
etags; `covers` compares these maps, and merging takes the greater etag of every instance, so a
merged vector covers exactly what covers both of its parts.
-/

namespace DocumentReplication

theorem VectorEntry.isTransactional_advance {entry seen : VectorEntry}
    (entryPlain : entry.isTransactional = false) (seenPlain : seen.isTransactional = false) :
    (entry.advance seen).isTransactional = false := by
  unfold advance
  split
  · exact seenPlain
  · exact entryPlain

namespace ChangeVector

/-- The greater of two etags, each of which may be unknown. -/
def greater : Option Int64 → Option Int64 → Option Int64
  | none, other => other
  | some etag, none => some etag
  | some etag, some other => some (max etag other)

theorem max_eq (etag other : Int64) : max etag other = if etag ≤ other then other else etag := rfl

theorem le_max_left (etag other : Int64) : etag ≤ max etag other := by
  rw [max_eq]
  split
  · assumption
  · exact Int64.le_refl _

theorem le_max_right (etag other : Int64) : other ≤ max etag other := by
  rw [max_eq]
  split
  · exact Int64.le_refl _
  · exact Int64.le_of_lt (Int64.not_le.mp (by assumption))

theorem max_le {etag other bound : Int64} (first : etag ≤ bound) (second : other ≤ bound) :
    max etag other ≤ bound := by
  rw [max_eq]
  split <;> assumption

theorem max_eq_left {etag other : Int64} (above : other ≤ etag) : max etag other = etag :=
  Int64.le_antisymm (max_le (Int64.le_refl _) above) (le_max_left etag other)

variable {vector other third incoming stored : ChangeVector} {name : String} {etag : Int64}

theorem etagFor_eq_some_iff :
    vector.etagFor name = some etag ↔
      ∃ entry ∈ vector.entries, entry.instanceId = name ∧ entry.etag = etag := by
  simp only [etagFor, Option.map_eq_some_iff]
  constructor
  · intro known
    obtain ⟨entry, found, same⟩ := known
    have named := List.find?_some found
    exact ⟨entry, List.mem_of_find?_eq_some found, by simpa using named, same⟩
  · intro known
    obtain ⟨entry, member, rfl, rfl⟩ := known
    exact ⟨entry, find?_instanceId vector.distinct member, rfl⟩

theorem etagFor_eq_none_iff :
    vector.etagFor name = none ↔ ∀ entry ∈ vector.entries, entry.instanceId ≠ name := by
  simp [etagFor]

theorem covers_iff :
    vector.covers other = true ↔
      ∀ name etag, other.etagFor name = some etag →
        ∃ known, vector.etagFor name = some known ∧ etag ≤ known := by
  simp only [covers, List.all_eq_true]
  constructor
  · intro all name etag found
    obtain ⟨entry, member, rfl, rfl⟩ := etagFor_eq_some_iff.mp found
    have behind := all entry member
    split at behind
    · rename_i known lookup
      exact ⟨known, lookup, of_decide_eq_true behind⟩
    · contradiction
  · intro all entry member
    obtain ⟨known, lookup, le⟩ :=
      all entry.instanceId entry.etag (etagFor_eq_some_iff.mpr ⟨entry, member, rfl, rfl⟩)
    simp [lookup, le]

theorem covers_refl (vector : ChangeVector) : vector.covers vector = true :=
  covers_iff.mpr fun _ etag found => ⟨etag, found, Int64.le_refl _⟩

theorem covers_trans (first : vector.covers other = true) (second : other.covers third = true) :
    vector.covers third = true := by
  apply covers_iff.mpr
  intro name etag found
  obtain ⟨middle, known, below⟩ := covers_iff.mp second name etag found
  obtain ⟨last, seen, above⟩ := covers_iff.mp first name middle known
  exact ⟨last, seen, Int64.le_trans below above⟩

theorem isEmpty_iff : vector.isEmpty = true ↔ vector = empty := by
  obtain ⟨entries, distinct⟩ := vector
  simp [isEmpty, empty]

theorem find?_absorbEntry (entries : List VectorEntry) (seen : VectorEntry) (name : String) :
    ((absorbEntry entries seen).find? (·.instanceId == name)).map (·.etag) =
      if seen.instanceId = name then
        greater ((entries.find? (·.instanceId == name)).map (·.etag)) (some seen.etag)
      else (entries.find? (·.instanceId == name)).map (·.etag) := by
  unfold absorbEntry
  split
  · rename_i known
    rw [List.find?_map, comp_advance (· == name)]
    cases found : entries.find? (·.instanceId == name) with
    | none =>
        have different : seen.instanceId ≠ name := by
          rintro rfl
          obtain ⟨entry, member, same⟩ := List.any_eq_true.mp known
          exact List.find?_eq_none.mp found entry member same
        simp [different]
    | some entry =>
        have named : entry.instanceId = name := by simpa using List.find?_some found
        by_cases same : seen.instanceId = name
        · simp only [named, same, Option.map_some, if_true, greater, VectorEntry.advance, max_eq]
          by_cases behind : entry.etag < seen.etag
          · simp [behind, Int64.le_of_lt behind]
          · rcases Int64.le_iff_lt_or_eq.mp (Int64.not_lt.mp behind) with above | equal
            · simp [behind, Int64.not_le.mpr above]
            · simp [equal]
        · simp [named, same, Ne.symm same]
  · rename_i absent
    simp only [Bool.not_eq_true, List.any_eq_false, beq_iff_eq] at absent
    rw [List.find?_append]
    by_cases same : seen.instanceId = name
    · subst same
      have missing : entries.find? (·.instanceId == seen.instanceId) = none :=
        List.find?_eq_none.mpr fun entry member => by simpa using absent entry member
      simp [missing, greater]
    · simp [same]

theorem etagFor_absorb (vector : ChangeVector) (seen : VectorEntry) (name : String) :
    (vector.absorb seen).etagFor name =
      if seen.instanceId = name then greater (vector.etagFor name) (some seen.etag)
      else vector.etagFor name :=
  find?_absorbEntry ..

theorem etagFor_foldl_absorb {entries : List VectorEntry}
    (distinct : (entries.map (·.instanceId)).Nodup) (vector : ChangeVector) (name : String) :
    (entries.foldl absorb vector).etagFor name =
      greater (vector.etagFor name) ((entries.find? (·.instanceId == name)).map (·.etag)) := by
  induction entries generalizing vector with
  | nil => cases found : vector.etagFor name <;> simp [greater, found]
  | cons first rest ih =>
      simp only [List.map_cons, List.nodup_cons] at distinct
      rw [List.foldl_cons, ih distinct.2, etagFor_absorb]
      by_cases same : first.instanceId = name
      · have missing : rest.find? (·.instanceId == name) = none :=
          List.find?_eq_none.mpr fun entry member => by
            have different : entry.instanceId ≠ first.instanceId := fun equal =>
              distinct.1 (equal ▸ List.mem_map_of_mem member)
            simpa [same] using different
        cases vector.etagFor name <;> simp [same, missing, greater]
      · simp [same]

/-- Merging takes the greater etag of every instance. -/
theorem etagFor_merge (vector incoming : ChangeVector) (name : String) :
    (vector.merge incoming).etagFor name =
      greater (vector.etagFor name) (incoming.etagFor name) :=
  etagFor_foldl_absorb incoming.distinct vector name

theorem covers_merge_left (vector incoming : ChangeVector) :
    (vector.merge incoming).covers vector = true := by
  apply covers_iff.mpr
  intro name etag found
  rw [etagFor_merge, found]
  cases incoming.etagFor name with
  | none => exact ⟨etag, rfl, Int64.le_refl _⟩
  | some other => exact ⟨_, rfl, le_max_left ..⟩

theorem covers_merge_right (vector incoming : ChangeVector) :
    (vector.merge incoming).covers incoming = true := by
  apply covers_iff.mpr
  intro name etag found
  rw [etagFor_merge, found]
  cases vector.etagFor name with
  | none => exact ⟨etag, rfl, Int64.le_refl _⟩
  | some other => exact ⟨_, rfl, le_max_right ..⟩

theorem absorb_of_known {seen : VectorEntry} {known : Int64}
    (lookup : vector.etagFor seen.instanceId = some known) (behind : seen.etag ≤ known) :
    vector.absorb seen = vector := by
  obtain ⟨entry, member, named, -⟩ := etagFor_eq_some_iff.mp lookup
  have present : vector.entries.any (·.instanceId == seen.instanceId) = true :=
    List.any_eq_true.mpr ⟨entry, member, by simpa using named⟩
  have still : ∀ candidate ∈ vector.entries,
      (if candidate.instanceId = seen.instanceId then candidate.advance seen else candidate) =
        candidate := by
    intro candidate found
    split
    · rename_i twin
      have held := etagFor_eq_some_iff.mpr ⟨candidate, found, twin, rfl⟩
      have same : candidate.etag = known := Option.some.inj (held.symm.trans lookup)
      simp [VectorEntry.advance, same, Int64.not_lt.mpr behind]
    · rfl
  have kept : absorbEntry vector.entries seen = vector.entries := by
    simp only [absorbEntry, present, if_true]
    exact (List.map_congr_left still).trans (List.map_id _)
  obtain ⟨entries, distinct⟩ := vector
  simpa only [absorb, ChangeVector.mk.injEq] using kept

/-- Nothing changes when a vector takes in what it knows. -/
theorem merge_of_covers (known : vector.covers incoming = true) :
    vector.merge incoming = vector := by
  have each : ∀ seen ∈ incoming.entries,
      ∃ etag, vector.etagFor seen.instanceId = some etag ∧ seen.etag ≤ etag :=
    fun seen member => covers_iff.mp known seen.instanceId seen.etag
      (etagFor_eq_some_iff.mpr ⟨seen, member, rfl, rfl⟩)
  unfold merge
  generalize incoming.entries = entries at each
  -- Each entry leaves the vector as it is, so the next one still meets the vector that knows it.
  induction entries with
  | nil => rfl
  | cons first rest ih =>
      obtain ⟨etag, lookup, behind⟩ := each first (by simp)
      rw [List.foldl_cons, absorb_of_known lookup behind]
      exact ih fun seen member => each seen (by simp [member])

variable {ignored : List String} {keep : VectorEntry → Bool}

theorem filter_eq_self (all : ∀ entry ∈ vector.entries, keep entry = true) :
    vector.filter keep = vector :=
  ext_entries (List.filter_eq_self.mpr all)

theorem covers_filter (vector : ChangeVector) (keep : VectorEntry → Bool) :
    vector.covers (vector.filter keep) = true := by
  apply covers_iff.mpr
  intro name etag found
  obtain ⟨entry, member, named, same⟩ := etagFor_eq_some_iff.mp found
  have kept := (List.mem_filter.mp member).1
  exact ⟨etag, etagFor_eq_some_iff.mpr ⟨entry, kept, named, same⟩, Int64.le_refl _⟩

theorem covers_without (vector : ChangeVector) (ignored : List String) :
    vector.covers (vector.without ignored) = true :=
  covers_filter ..

theorem countIn_eq_zero_iff :
    vector.countIn ignored = 0 ↔ ∀ entry ∈ vector.entries, entry.instanceId ∉ ignored := by
  simp [countIn, List.countP_eq_zero]

theorem without_of_countIn (none : vector.countIn ignored = 0) : vector.without ignored = vector :=
  filter_eq_self fun entry member => by simpa using countIn_eq_zero_iff.mp none entry member

theorem countIn_without (vector : ChangeVector) (ignored : List String) :
    (vector.without ignored).countIn ignored = 0 := by
  apply countIn_eq_zero_iff.mpr
  intro entry member
  simpa using (List.mem_filter.mp member).2

theorem countIn_merge (first : vector.countIn ignored = 0) (second : incoming.countIn ignored = 0) :
    (vector.merge incoming).countIn ignored = 0 := by
  rw [countIn_eq_zero_iff] at first second ⊢
  refine forall_mem_merge (fun entry seen outside _ _ => ?_) first second
  rwa [VectorEntry.advance_instanceId]

theorem isTransactional_of_stripped (stripped : vector.withoutTransactional = vector) :
    ∀ entry ∈ vector.entries, entry.isTransactional = false := by
  intro entry member
  rw [← stripped] at member
  simpa using (List.mem_filter.mp member).2

/-- Whether a vector may be stored: no entry is transactional or of an ignored instance. -/
def Storable (ignored : List String) (vector : ChangeVector) : Prop :=
  ∀ entry ∈ vector.entries, entry.isTransactional = false ∧ entry.instanceId ∉ ignored

theorem storable_empty (ignored : List String) : empty.Storable ignored := by
  intro entry member
  contradiction

theorem Storable.merge (first : vector.Storable ignored) (second : incoming.Storable ignored) :
    (vector.merge incoming).Storable ignored := by
  refine forall_mem_merge ?_ first second
  intro entry seen entryHolds seenHolds _
  exact ⟨VectorEntry.isTransactional_advance entryHolds.1 seenHolds.1, by simpa using entryHolds.2⟩

theorem Storable.withoutTransactional (kept : vector.Storable ignored) :
    vector.withoutTransactional = vector :=
  filter_eq_self fun entry member => by simp [(kept entry member).1]

theorem Storable.countIn (kept : vector.Storable ignored) : vector.countIn ignored = 0 :=
  countIn_eq_zero_iff.mpr fun entry member => (kept entry member).2

theorem Storable.without (kept : vector.Storable ignored) : vector.without ignored = vector :=
  without_of_countIn kept.countIn

theorem storable_filtered (vector : ChangeVector) (ignored : List String) :
    (vector.withoutTransactional.without ignored).Storable ignored := by
  intro entry member
  obtain ⟨inner, kept⟩ := List.mem_filter.mp member
  obtain ⟨-, plain⟩ := List.mem_filter.mp inner
  exact ⟨by simpa using plain, by simpa using kept⟩

theorem settle_eq_none_iff : incoming.settle stored = none ↔ stored.covers incoming = true := by
  simp only [settle, compare]
  by_cases known : stored.covers incoming = true
  · simp [known]
  · by_cases newer : incoming.covers stored = true <;> simp [known, newer]

theorem settle_cases {written : ChangeVector} (settled : incoming.settle stored = some written) :
    (written = incoming ∧ incoming.covers stored = true) ∨ written = incoming.merge stored := by
  simp only [settle, compare] at settled
  split at settled
  · contradiction
  · rename_i standing
    split at standing
    · contradiction
    · split at standing
      · cases settled
        exact .inl ⟨rfl, by assumption⟩
      · contradiction
  · cases settled
    exact .inr rfl

theorem settle_covers {written : ChangeVector} (settled : incoming.settle stored = some written) :
    written.covers incoming = true ∧ written.covers stored = true := by
  rcases settle_cases settled with ⟨rfl, newer⟩ | rfl
  · exact ⟨covers_refl _, newer⟩
  · exact ⟨covers_merge_left .., covers_merge_right ..⟩

end ChangeVector

end DocumentReplication
