/-!
Finite maps as lists of entries with distinct keys, in the order the keys were first added.

`get?` is the view: every operation is described by what it does to `get?`.
-/

namespace DocumentReplication

variable {κ ν : Type} [DecidableEq κ]

structure Dictionary (κ ν : Type) where
  entries : List (κ × ν)
  distinct : (entries.map (·.1)).Nodup
deriving Repr

namespace Dictionary

def empty : Dictionary κ ν := ⟨[], by simp⟩

instance : EmptyCollection (Dictionary κ ν) := ⟨empty⟩

instance : Inhabited (Dictionary κ ν) := ⟨empty⟩

def find (key : κ) : List (κ × ν) → Option ν
  | [] => none
  | entry :: rest => if entry.1 = key then some entry.2 else find key rest

def get? (table : Dictionary κ ν) (key : κ) : Option ν :=
  find key table.entries

def contains (table : Dictionary κ ν) (key : κ) : Bool :=
  (table.get? key).isSome

def keys (table : Dictionary κ ν) : List κ :=
  table.entries.map (·.1)

def size (table : Dictionary κ ν) : Nat :=
  table.entries.length

def isEmpty (table : Dictionary κ ν) : Bool :=
  table.entries.isEmpty

def place (key : κ) (value : ν) : List (κ × ν) → List (κ × ν)
  | [] => [(key, value)]
  | entry :: rest =>
    if entry.1 = key then (key, value) :: rest else entry :: place key value rest

theorem mem_keys_place {key other : κ} {value : ν} {entries : List (κ × ν)} :
    other ∈ (place key value entries).map (·.1) ↔
      other = key ∨ other ∈ entries.map (·.1) := by
  induction entries with
  | nil => simp [place]
  | cons entry rest ih =>
      by_cases same : entry.1 = key
      · simp [place, same]
      · simp only [place, if_neg same, List.map_cons, List.mem_cons, ih]
        exact or_left_comm

theorem place_distinct {key : κ} {value : ν} {entries : List (κ × ν)}
    (distinct : (entries.map (·.1)).Nodup) : ((place key value entries).map (·.1)).Nodup := by
  induction entries with
  | nil => simp [place]
  | cons entry rest ih =>
      simp only [List.map_cons, List.nodup_cons] at distinct
      by_cases same : entry.1 = key
      · subst same
        simpa only [place, if_pos, List.map_cons, List.nodup_cons] using distinct
      · simp only [place, if_neg same, List.map_cons, List.nodup_cons, mem_keys_place, not_or]
        exact ⟨⟨same, distinct.1⟩, ih distinct.2⟩

/-- Replaces the value of a key that is there, and appends a new key. -/
def insert (table : Dictionary κ ν) (key : κ) (value : ν) : Dictionary κ ν :=
  ⟨place key value table.entries, place_distinct table.distinct⟩

def erase (table : Dictionary κ ν) (key : κ) : Dictionary κ ν :=
  ⟨table.entries.filter (·.1 ≠ key), table.distinct.sublist (List.filter_sublist.map _)⟩

def mapValues {μ : Type} (change : ν → μ) (table : Dictionary κ ν) : Dictionary κ μ :=
  ⟨table.entries.map fun (key, value) => (key, change value), by
    simpa [Function.comp_def] using table.distinct⟩

/-- Of equal keys the last one counts. -/
def ofList (entries : List (κ × ν)) : Dictionary κ ν :=
  entries.foldl (fun table entry => table.insert entry.1 entry.2) empty

@[simp] theorem get?_empty (key : κ) : (empty : Dictionary κ ν).get? key = none := rfl

theorem find_place {key other : κ} {value : ν} {entries : List (κ × ν)} :
    find other (place key value entries) =
      if key = other then some value else find other entries := by
  induction entries with
  | nil => rfl
  | cons entry rest ih =>
      by_cases same : entry.1 = key
      · by_cases wanted : key = other
        · simp [place, find, same, wanted]
        · simp [place, find, same, wanted]
      · by_cases wanted : entry.1 = other
        · subst wanted
          simp [place, find, same, Ne.symm same]
        · simp [place, find, same, wanted, ih]

theorem get?_insert (table : Dictionary κ ν) (key other : κ) (value : ν) :
    (table.insert key value).get? other = if key = other then some value else table.get? other :=
  find_place

@[simp] theorem get?_insert_self (table : Dictionary κ ν) (key : κ) (value : ν) :
    (table.insert key value).get? key = some value := by
  simp [get?_insert]

theorem find_filter_ne {key other : κ} {entries : List (κ × ν)} :
    find other (entries.filter (·.1 ≠ key)) = if key = other then none else find other entries := by
  induction entries with
  | nil => simp [find]
  | cons entry rest ih =>
      by_cases same : entry.1 = key
      · by_cases wanted : key = other
        · simpa [same, wanted] using ih
        · simpa [same, wanted, find] using ih
      · by_cases wanted : entry.1 = other
        · subst wanted
          simp [find, same, Ne.symm same]
        · simpa [same, wanted, find] using ih

theorem get?_erase (table : Dictionary κ ν) (key other : κ) :
    (table.erase key).get? other = if key = other then none else table.get? other :=
  find_filter_ne

@[simp] theorem get?_mapValues {μ : Type} (change : ν → μ) (table : Dictionary κ ν) (key : κ) :
    (table.mapValues change).get? key = (table.get? key).map change := by
  obtain ⟨entries, distinct⟩ := table
  simp only [get?, mapValues]
  clear distinct
  induction entries with
  | nil => rfl
  | cons entry rest ih =>
      by_cases same : entry.1 = key
      · simp [find, same]
      · simpa [find, same] using ih

theorem find_eq_none_iff {key : κ} {entries : List (κ × ν)} :
    find key entries = none ↔ key ∉ entries.map (·.1) := by
  induction entries with
  | nil => simp [find]
  | cons entry rest ih =>
      by_cases same : entry.1 = key
      · simp [find, same]
      · simp [find, same, Ne.symm same, ih]

theorem mem_entries_iff (table : Dictionary κ ν) {key : κ} {value : ν} :
    (key, value) ∈ table.entries ↔ table.get? key = some value := by
  obtain ⟨entries, distinct⟩ := table
  simp only [get?]
  induction entries with
  | nil => simp [find]
  | cons entry rest ih =>
      simp only [List.map_cons, List.nodup_cons] at distinct
      by_cases same : entry.1 = key
      · have absent : (key, value) ∉ rest := fun member =>
          distinct.1 (same ▸ List.mem_map_of_mem member)
        simp [find, same, absent, Prod.ext_iff, eq_comm]
      · have different : (key, value) ≠ entry := fun equal => same (equal ▸ rfl)
        simp [find, same, different, ih distinct.2]

end Dictionary

end DocumentReplication
