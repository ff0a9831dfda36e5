import DocumentReplication.Commit.Slice
import DocumentReplication.Proofs.ChangeVector.Order
import DocumentReplication.Proofs.Store.RoundTrip

/-!
Etags of sources. A context takes note of the etags its sources reached, and the state moves forward
to them; no source falls back.
-/

namespace DocumentReplication

open ChangeVector (greater)

variable {source other : String} {etag current : Int64} {reached stored : Dictionary String Int64}

/-- Whether a table of etags is behind another, source by source. -/
def Behind (reached stored : Dictionary String Int64) : Prop :=
  ∀ source etag, reached.get? source = some etag →
    ∃ current, stored.get? source = some current ∧ etag ≤ current

theorem behind_empty (stored : Dictionary String Int64) : Behind .empty stored := by
  intro source etag found
  contradiction

theorem get?_recordEtag (context : Context) (source other : String) (etag : Int64) :
    (context.recordEtag source etag).etags.get? other =
      if source = other then greater (context.etags.get? other) (some etag)
      else context.etags.get? other := by
  simp only [Context.recordEtag, Dictionary.get?_insert]
  by_cases same : source = other
  · subst same
    cases context.etags.get? source <;> simp [greater]
  · simp [same]

theorem exists_recordEtag (context : Context) (source : String) (etag : Int64) :
    ∃ reached, (context.recordEtag source etag).etags.get? source = some reached ∧
      etag ≤ reached := by
  rw [get?_recordEtag, if_pos rfl]
  cases context.etags.get? source with
  | none => exact ⟨etag, rfl, Int64.le_refl _⟩
  | some current => exact ⟨_, rfl, ChangeVector.le_max_right ..⟩

namespace Slice

def forward (etags : Dictionary String Int64) (entry : String × Int64) : Dictionary String Int64 :=
  etags.insert entry.1 (match etags.get? entry.1 with
    | some current => max current entry.2
    | none => entry.2)

theorem get?_forward (etags : Dictionary String Int64) (entry : String × Int64) (source : String) :
    (forward etags entry).get? source =
      if entry.1 = source then greater (etags.get? source) (some entry.2)
      else etags.get? source := by
  simp only [forward, Dictionary.get?_insert]
  by_cases same : entry.1 = source
  · subst same
    cases etags.get? entry.1 <;> simp [greater]
  · simp [same]

theorem forward_of_behind {entry : String × Int64} (found : stored.get? entry.1 = some current)
    (behind : entry.2 ≤ current) : forward stored entry = stored := by
  have same : max current entry.2 = current := ChangeVector.max_eq_left behind
  rw [forward]
  simp only [found, same]
  exact Dictionary.insert_of_get? found

theorem get?_foldl_forward {entries : List (String × Int64)}
    (distinct : (entries.map (·.1)).Nodup) (stored : Dictionary String Int64) (source : String) :
    (entries.foldl forward stored).get? source =
      greater (stored.get? source) (Dictionary.find source entries) := by
  induction entries generalizing stored with
  | nil => cases found : stored.get? source <;> simp [Dictionary.find, greater, found]
  | cons entry rest ih =>
      simp only [List.map_cons, List.nodup_cons] at distinct
      rw [List.foldl_cons, ih distinct.2, get?_forward]
      by_cases same : entry.1 = source
      · have absent : Dictionary.find source rest = none :=
          Dictionary.find_eq_none_iff.mpr (same ▸ distinct.1)
        rw [absent, if_pos same, Dictionary.find, if_pos same]
        cases stored.get? source <;> rfl
      · rw [if_neg same, Dictionary.find, if_neg same]

/-- Every source is as far as it was or as far as the context came, whichever is further. -/
theorem get?_advance (reached stored : Dictionary String Int64) (source : String) :
    (advance reached stored).get? source = greater (stored.get? source) (reached.get? source) :=
  get?_foldl_forward reached.distinct stored source

theorem behind_advance (reached stored : Dictionary String Int64) :
    Behind stored (advance reached stored) ∧ Behind reached (advance reached stored) := by
  constructor
  · intro source etag found
    rw [get?_advance, found]
    cases reached.get? source with
    | none => exact ⟨etag, rfl, Int64.le_refl _⟩
    | some other => exact ⟨_, rfl, ChangeVector.le_max_left ..⟩
  · intro source etag found
    rw [get?_advance, found]
    cases stored.get? source with
    | none => exact ⟨etag, rfl, Int64.le_refl _⟩
    | some other => exact ⟨_, rfl, ChangeVector.le_max_right ..⟩

theorem foldl_forward_of_behind {entries : List (String × Int64)}
    (behind : ∀ entry ∈ entries, ∃ current, stored.get? entry.1 = some current ∧ entry.2 ≤ current) :
    entries.foldl forward stored = stored := by
  induction entries with
  | nil => rfl
  | cons entry rest ih =>
      obtain ⟨current, found, below⟩ := behind entry List.mem_cons_self
      rw [List.foldl_cons, forward_of_behind found below]
      exact ih fun later member => behind later (List.mem_cons_of_mem _ member)

theorem advance_of_behind (behind : Behind reached stored) : advance reached stored = stored :=
  foldl_forward_of_behind fun (source, etag) member =>
    behind source etag ((reached.mem_entries_iff).mp member)

theorem forward_of_reached {noted : Int64} (found : stored.get? source = some current)
    (behind : noted ≤ current) (etag : Int64) :
    forward stored (source, max noted etag) = forward stored (source, etag) := by
  have same : max current (max noted etag) = max current etag := by
    refine Int64.le_antisymm (ChangeVector.max_le (ChangeVector.le_max_left ..)
      (ChangeVector.max_le ?_ (ChangeVector.le_max_right ..)))
      (ChangeVector.max_le (ChangeVector.le_max_left ..) ?_)
    · exact Int64.le_trans behind (ChangeVector.le_max_left ..)
    · exact Int64.le_trans (ChangeVector.le_max_right noted etag) (ChangeVector.le_max_right ..)
  simp only [forward, found, same]

theorem foldl_forward_place {entries : List (String × Int64)}
    (distinct : (entries.map (·.1)).Nodup)
    (behind : ∀ entry ∈ entries, ∃ current, stored.get? entry.1 = some current ∧ entry.2 ≤ current) :
    (Dictionary.place source (match Dictionary.find source entries with
      | some noted => max noted etag
      | none => etag) entries).foldl forward stored = forward stored (source, etag) := by
  induction entries with
  | nil => rfl
  | cons entry rest ih =>
      simp only [List.map_cons, List.nodup_cons] at distinct
      obtain ⟨current, found, below⟩ := behind entry List.mem_cons_self
      have later : ∀ other ∈ rest, ∃ current, stored.get? other.1 = some current ∧
          other.2 ≤ current := fun other member => behind other (List.mem_cons_of_mem _ member)
      by_cases same : entry.1 = source
      · -- The entries after this one name other sources, which this one has not moved.
        subst same
        simp only [Dictionary.find, Dictionary.place, if_true, List.foldl_cons,
          forward_of_reached found below]
        apply foldl_forward_of_behind
        intro other member
        have apart : entry.1 ≠ other.1 := fun same =>
          distinct.1 (same ▸ List.mem_map_of_mem member)
        rw [get?_forward, if_neg apart]
        exact later other member
      · simp only [Dictionary.find, Dictionary.place, if_neg same, List.foldl_cons,
          forward_of_behind found below]
        exact ih distinct.2 later

/-- Where the context has no etag that the state does not know, only the etag of the slice moves the
state. -/
theorem advance_recordEtag {context : Context} (behind : Behind context.etags stored)
    (source : String) (etag : Int64) :
    advance (context.recordEtag source etag).etags stored = forward stored (source, etag) :=
  foldl_forward_place context.etags.distinct fun (source, etag) member =>
    behind source etag (context.etags.mem_entries_iff.mp member)

end Slice

end DocumentReplication
