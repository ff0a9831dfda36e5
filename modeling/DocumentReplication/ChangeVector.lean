import DocumentReplication.Fault

/-!
Change vectors: for every database instance that touched a record, the last etag it produced.

A vector keeps its entries in order, one per instance. `etagFor` is the view under which vectors are
compared: merging takes the greater etag of every instance, and one vector covers another when it is
nowhere behind.
-/

namespace DocumentReplication

structure VectorEntry where
  tag : String
  etag : Int64
  instanceId : String
deriving DecidableEq, Repr

namespace VectorEntry

/-- Tag of entries that belong to a transaction and must not be stored. -/
def transactionTag : String := "TRXN"

def isTransactional (entry : VectorEntry) : Bool :=
  entry.tag == transactionTag

/-- The entry after a change of the same instance was seen; an older change has no effect. -/
def advance (entry incoming : VectorEntry) : VectorEntry :=
  if entry.etag < incoming.etag then { entry with tag := incoming.tag, etag := incoming.etag }
  else entry

@[simp] theorem advance_instanceId (entry incoming : VectorEntry) :
    (entry.advance incoming).instanceId = entry.instanceId := by
  unfold advance
  split <;> rfl

end VectorEntry

structure ChangeVector where
  entries : List VectorEntry
  distinct : (entries.map (·.instanceId)).Nodup
deriving DecidableEq, Repr

namespace ChangeVector

def empty : ChangeVector := ⟨[], by simp⟩

instance : Inhabited ChangeVector := ⟨empty⟩

/-- The first name that an earlier one already took. -/
def repeated? (seen : List String) : List String → Option String
  | [] => none
  | name :: rest => if name ∈ seen then some name else repeated? (name :: seen) rest

theorem repeated?_eq_none_iff {seen names : List String} :
    repeated? seen names = none ↔ names.Nodup ∧ ∀ name ∈ names, name ∉ seen := by
  induction names generalizing seen with
  | nil => simp [repeated?]
  | cons name rest ih =>
      by_cases taken : name ∈ seen
      · simp [repeated?, taken]
      · simp only [repeated?, if_neg taken, ih, List.nodup_cons, List.mem_cons, not_or]
        constructor
        · rintro ⟨nodup, fresh⟩
          refine ⟨⟨fun member => (fresh name member).1 rfl, nodup⟩, ?_⟩
          rintro other (rfl | member)
          · exact taken
          · exact (fresh other member).2
        · rintro ⟨⟨absent, nodup⟩, fresh⟩
          exact ⟨nodup, fun other member =>
            ⟨fun same => absent (same ▸ member), fresh other (.inr member)⟩⟩

def ofEntries (entries : List VectorEntry) : Except VectorFault ChangeVector :=
  match found : repeated? [] (entries.map (·.instanceId)) with
  | some name => .error (.duplicateInstance name)
  | none => .ok ⟨entries, (repeated?_eq_none_iff.mp found).1⟩

theorem ofEntries_entries (vector : ChangeVector) : ofEntries vector.entries = .ok vector := by
  have fresh : repeated? [] (vector.entries.map (·.instanceId)) = none :=
    repeated?_eq_none_iff.mpr ⟨vector.distinct, by simp⟩
  unfold ofEntries
  split
  · rename_i found
    rw [fresh] at found
    contradiction
  · rfl

theorem entries_of_ofEntries {entries : List VectorEntry} {vector : ChangeVector}
    (made : ofEntries entries = .ok vector) : vector.entries = entries := by
  unfold ofEntries at made
  split at made
  · contradiction
  · cases made
    rfl

def isEmpty (vector : ChangeVector) : Bool := vector.entries.isEmpty

/-- The last etag known of an instance. -/
def etagFor (vector : ChangeVector) (instanceId : String) : Option Int64 :=
  (vector.entries.find? (·.instanceId == instanceId)).map (·.etag)

/-- Entries after a change was seen: the entry of its instance advances, a new instance is added at
the end. -/
def absorbEntry (entries : List VectorEntry) (incoming : VectorEntry) : List VectorEntry :=
  if entries.any (·.instanceId == incoming.instanceId) then
    entries.map fun entry =>
      if entry.instanceId = incoming.instanceId then entry.advance incoming else entry
  else entries ++ [incoming]

theorem absorbEntry_distinct {entries : List VectorEntry} {incoming : VectorEntry}
    (distinct : (entries.map (·.instanceId)).Nodup) :
    ((absorbEntry entries incoming).map (·.instanceId)).Nodup := by
  unfold absorbEntry
  split
  · have same : (entries.map fun entry =>
        if entry.instanceId = incoming.instanceId then entry.advance incoming else entry).map
          (·.instanceId) = entries.map (·.instanceId) := by
      simp only [List.map_map, List.map_inj_left, Function.comp_apply]
      intro entry _
      split <;> simp
    rw [same]
    exact distinct
  · rename_i absent
    simp only [List.any_eq_true, beq_iff_eq, not_exists, not_and] at absent
    simp only [List.map_append, List.map_cons, List.map_nil, List.nodup_append, distinct,
      List.nodup_cons, List.not_mem_nil, not_false_eq_true, List.nodup_nil, and_self,
      List.mem_map, List.mem_singleton, true_and]
    rintro _ ⟨entry, member, rfl⟩ _ rfl
    exact absent entry member

def absorb (vector : ChangeVector) (incoming : VectorEntry) : ChangeVector :=
  ⟨absorbEntry vector.entries incoming, absorbEntry_distinct vector.distinct⟩

/-- The greater etag of every instance. Keeps the order of the first vector and appends the
instances only the second knows, in its order. -/
def merge (vector incoming : ChangeVector) : ChangeVector :=
  incoming.entries.foldl absorb vector

def filter (keep : VectorEntry → Bool) (vector : ChangeVector) : ChangeVector :=
  ⟨vector.entries.filter keep, vector.distinct.sublist ((List.filter_sublist).map _)⟩

def withoutTransactional (vector : ChangeVector) : ChangeVector :=
  vector.filter fun entry => !entry.isTransactional

def without (ignored : List String) (vector : ChangeVector) : ChangeVector :=
  vector.filter fun entry => !ignored.contains entry.instanceId

def countIn (ignored : List String) (vector : ChangeVector) : Nat :=
  vector.entries.countP fun entry => ignored.contains entry.instanceId

/-- Whether the vector is nowhere behind another. -/
def covers (vector other : ChangeVector) : Bool :=
  other.entries.all fun entry =>
    match vector.etagFor entry.instanceId with
    | some etag => decide (entry.etag ≤ etag)
    | none => false

def equiv (vector other : ChangeVector) : Bool :=
  vector.entries.length == other.entries.length &&
    vector.entries.all fun entry => other.etagFor entry.instanceId == some entry.etag

inductive Standing where
  /-- The stored vector already knows everything the incoming one knows. -/
  | alreadyMerged
  /-- The incoming vector advances the stored one. -/
  | update
  /-- Each knows something the other does not. -/
  | conflict
deriving DecidableEq, Repr

def compare (incoming stored : ChangeVector) : Standing :=
  if stored.covers incoming then .alreadyMerged
  else if incoming.covers stored then .update
  else .conflict

end ChangeVector

end DocumentReplication
