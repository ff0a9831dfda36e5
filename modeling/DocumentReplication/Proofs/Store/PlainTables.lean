import DocumentReplication.Proofs.Digest.ContentHash
import DocumentReplication.Proofs.Store.TransactionalMap
import DocumentReplication.Proofs.Store.View

/-!
A store against what its clients take it for: a plain map for each table, and for a transaction an
overlay that reads see through. A mapped store keeps long keys under digests, so it is that map only
for keys that it keeps apart.
-/

namespace DocumentReplication

abbrev PlainTables := Table → String → Option Bytes

namespace PlainTables

def empty : PlainTables := fun _ _ => none

def set (tables : PlainTables) (table : Table) (key : String) (written : Option Bytes) : PlainTables :=
  fun other place => if table = other ∧ key = place then written else tables other place

/-- A transaction over plain tables. -/
structure Overlay where
  base : PlainTables
  /-- The last write to each key; the inner `none` deletes. -/
  written : Table → String → Option (Option Bytes)

namespace Overlay

def view (overlay : Overlay) : PlainTables :=
  fun table key => (overlay.written table key).getD (overlay.base table key)

def write (overlay : Overlay) (table : Table) (key : String) (written : Option Bytes) : Overlay :=
  { overlay with
    written := fun other place =>
      if table = other ∧ key = place then some written else overlay.written other place }

theorem view_write (overlay : Overlay) (table : Table) (key : String) (written : Option Bytes) :
    (overlay.write table key written).view = overlay.view.set table key written := by
  funext other place
  by_cases met : table = other ∧ key = place
  · simp only [view, write, set, if_pos met, Option.getD_some]
  · simp only [view, write, set, if_neg met]

end Overlay

def transactionalMap : TransactionalMap PlainTables Overlay where
  begin tables := ⟨tables, fun _ _ => none⟩
  read tables table key := .ok (tables table key)
  get overlay table key := .ok (overlay.view table key)
  put overlay table key value := .ok (overlay.write table key (some value))
  delete overlay table key := .ok ((overlay.view table key).isSome, overlay.write table key none)
  commit := Overlay.view

end PlainTables

def Partition.transactionalMap : TransactionalMap Partition Transaction where
  begin := Partition.begin
  read := Partition.read
  get := Transaction.get
  put := Transaction.put
  delete := Transaction.delete
  commit := Transaction.commit

namespace Backend

/-- What a mapped store keeps an entry under if its key is long. -/
def digestKey (key : String) : String := "sha256:" ++ contentHash (Text.utf8 key)

/-- Keys that no store takes for one another, and that every store takes. -/
structure KeptApart (keys : List String) : Prop where
  nonempty : ∀ key ∈ keys, key ≠ ""
  noDigest : ∀ short ∈ keys, ∀ long ∈ keys, short.utf8ByteSize ≤ maxKeySize →
    maxKeySize < long.utf8ByteSize → short ≠ digestKey long
  noCollision : ∀ first ∈ keys, ∀ last ∈ keys, maxKeySize < first.utf8ByteSize →
    maxKeySize < last.utf8ByteSize →
    Sha256.digest (Text.utf8 first) = Sha256.digest (Text.utf8 last) → first = last

variable {keys : List String} {key first last : String}

theorem storedKey_of_le (short : key.utf8ByteSize ≤ maxKeySize) : mapped.storedKey key = key :=
  if_pos short

theorem storedKey_of_lt (long : maxKeySize < key.utf8ByteSize) :
    mapped.storedKey key = digestKey key :=
  if_neg (Nat.not_le.mpr long)

theorem digest_eq_of_digestKey (same : digestKey first = digestKey last) :
    Sha256.digest (Text.utf8 first) = Sha256.digest (Text.utf8 last) :=
  digest_eq_of_contentHash ((String.append_right_inj _).mp same)

namespace KeptApart

theorem mono {fewer : List String} (apart : KeptApart keys) (among : fewer ⊆ keys) :
    KeptApart fewer where
  nonempty key member := apart.nonempty key (among member)
  noDigest short shorts long longs := apart.noDigest short (among shorts) long (among longs)
  noCollision first firsts last lasts := apart.noCollision first (among firsts) last (among lasts)

theorem checkKey (apart : KeptApart keys) (backend : Backend) (member : key ∈ keys) :
    backend.checkKey key = .ok () := by
  refine if_neg fun refused => apart.nonempty key member ?_
  simpa using refused.2

theorem storedKey_inj (apart : KeptApart keys) (backend : Backend) (firsts : first ∈ keys)
    (lasts : last ∈ keys) (same : backend.storedKey first = backend.storedKey last) :
    first = last := by
  cases backend with
  | memory => exact same
  | mapped =>
      rcases Nat.lt_or_ge maxKeySize first.utf8ByteSize with firstLong | firstShort <;>
        rcases Nat.lt_or_ge maxKeySize last.utf8ByteSize with lastLong | lastShort
      · rw [storedKey_of_lt firstLong, storedKey_of_lt lastLong] at same
        exact apart.noCollision first firsts last lasts firstLong lastLong
          (digest_eq_of_digestKey same)
      · rw [storedKey_of_lt firstLong, storedKey_of_le lastShort] at same
        exact absurd same.symm (apart.noDigest last lasts first firsts lastShort firstLong)
      · rw [storedKey_of_le firstShort, storedKey_of_lt lastLong] at same
        exact absurd same (apart.noDigest first firsts last lasts firstShort lastLong)
      · rwa [storedKey_of_le firstShort, storedKey_of_le lastShort] at same

end KeptApart

end Backend

namespace Transaction

/-- A transaction over a store of some kind finds under each of some keys what the tables hold, and
nothing else. -/
structure Shows (backend : Backend) (keys : List String) (work : Transaction)
    (tables : PlainTables) : Prop where
  kind : work.base.backend = backend
  held : ∀ table, ∀ key ∈ keys,
    work.lookup? (table, backend.storedKey key) = (tables table key).map fun value => ⟨key, value⟩
  placed : ∀ {table place entry}, work.lookup? (table, place) = some entry →
    entry.key ∈ keys ∧ backend.storedKey entry.key = place
  used : ∀ {table key value}, tables table key = some value → key ∈ keys

namespace Shows

variable {backend : Backend} {keys : List String} {work next : Transaction} {tables : PlainTables}
  {key : String}

theorem create (backend : Backend) (keys : List String) :
    Shows backend keys (Partition.create backend).begin .empty where
  kind := rfl
  held _ _ _ := rfl
  placed found := nomatch found
  used found := nomatch found

theorem commit (shown : Shows backend keys work tables) :
    Shows backend keys work.commit.begin tables where
  kind := shown.kind
  held table key member := by
    rw [work.sameView_begin_commit.lookup, shown.held table key member]
  placed found := by
    rw [work.sameView_begin_commit.lookup] at found
    exact shown.placed found
  used := shown.used

theorem address (shown : Shows backend keys work tables) (table : Table) (key : String) :
    work.address table key = (table, backend.storedKey key) := by
  rw [Transaction.address, shown.kind]

theorem get (shown : Shows backend keys work tables) (apart : Backend.KeptApart keys)
    (table : Table) (member : key ∈ keys) : work.get table key = .ok (tables table key) := by
  rw [get_eq_ok_iff, shown.kind, shown.address, shown.held table key member, Option.map_map]
  exact ⟨apart.checkKey backend member, congrFun Option.map_id _⟩

/-- A write under one of the keys is a write to the tables: no other key is kept there. -/
theorem set (shown : Shows backend keys work tables) (apart : Backend.KeptApart keys)
    (table : Table) (member : key ∈ keys) (written : Option Bytes)
    (base : next.base = work.base)
    (found : ∀ address, next.lookup? address =
      if (table, backend.storedKey key) = address then written.map fun value => ⟨key, value⟩
      else work.lookup? address) :
    Shows backend keys next (tables.set table key written) where
  kind := by rw [base, shown.kind]
  held other place listed := by
    rw [found, PlainTables.set]
    by_cases met : table = other ∧ key = place
    · rw [if_pos met, if_pos (Prod.ext met.1 (congrArg backend.storedKey met.2)), met.2]
    · rw [if_neg met, if_neg, shown.held other place listed]
      intro same
      obtain ⟨tables, places⟩ := Prod.ext_iff.mp same
      exact met ⟨tables, apart.storedKey_inj backend member listed places⟩
  placed := by
    intro other place entry here
    rw [found] at here
    split at here
    · rename_i met
      obtain ⟨value, -, rfl⟩ := Option.map_eq_some_iff.mp here
      exact ⟨member, (Prod.ext_iff.mp met).2⟩
    · exact shown.placed here
  used := by
    intro other place value here
    rw [PlainTables.set] at here
    split at here
    · rename_i met
      exact met.2 ▸ member
    · exact shown.used here

theorem put (shown : Shows backend keys work tables) (apart : Backend.KeptApart keys)
    (table : Table) (member : key ∈ keys) (value : Bytes) :
    ∃ next, work.put table key value = .ok next ∧
      Shows backend keys next (tables.set table key (some value)) := by
  have allowed : work.base.backend.checkKey key = .ok () := apart.checkKey _ member
  obtain ⟨next, done⟩ := exists_put allowed table value
  refine ⟨next, done, shown.set apart table member _ (base_put done) fun address => ?_⟩
  rw [lookup?_put done, shown.address, Option.map_some]

theorem delete (shown : Shows backend keys work tables) (apart : Backend.KeptApart keys)
    (table : Table) (member : key ∈ keys) :
    ∃ next, work.delete table key = .ok ((tables table key).isSome, next) ∧
      Shows backend keys next (tables.set table key none) := by
  have allowed : work.base.backend.checkKey key = .ok () := apart.checkKey _ member
  obtain ⟨next, done⟩ := exists_delete allowed table
  have present : (work.lookup? (work.address table key)).isSome = (tables table key).isSome := by
    rw [shown.address, shown.held table key member, Option.isSome_map]
  refine ⟨next, present ▸ done, shown.set apart table member _ (base_delete done) fun address => ?_⟩
  rw [lookup?_delete done, shown.address, Option.map_none]

end Shows

end Transaction

namespace Partition

variable {backend : Backend} {keys : List String} {store : Partition} {tables : PlainTables}

open Transaction (Shows)

/-- On keys that are kept apart a store answers as plain tables do. -/
theorem implements_plainTables (backend : Backend) (apart : Backend.KeptApart keys) :
    transactionalMap.Implements PlainTables.transactionalMap (· ∈ keys)
      (fun store tables => Shows backend keys store.begin tables)
      (fun work overlay => Shows backend keys work overlay.view) where
  begin shown := shown
  read shown table _ member := shown.get apart table member
  get shown table _ member := shown.get apart table member
  put shown table _ member value := by
    obtain ⟨next, done, shown⟩ := shown.put apart table member value
    simp only [transactionalMap, PlainTables.transactionalMap, done]
    exact .ok (by rwa [PlainTables.Overlay.view_write])
  delete shown table _ member := by
    obtain ⟨next, done, shown⟩ := shown.delete apart table member
    simp only [transactionalMap, PlainTables.transactionalMap, done]
    exact .ok ⟨rfl, by rwa [PlainTables.Overlay.view_write]⟩
  commit shown := shown.commit

/-- The entries of the store are those of the tables, each key listed once. -/
structure Lists (store : Partition) (tables : PlainTables) : Prop where
  distinct : ∀ table, ((store.entriesOf table).map (·.key)).Nodup
  mem_iff : ∀ table entry, entry ∈ store.entriesOf table ↔ tables table entry.key = some entry.value

theorem Lists.perm {first last : Partition} (firsts : first.Lists tables)
    (lasts : last.Lists tables) (table : Table) :
    (first.entriesOf table).Perm (last.entriesOf table) :=
  (List.perm_ext_iff_of_nodup (firsts.distinct table).of_map (lasts.distinct table).of_map).mpr
    fun entry => (firsts.mem_iff table entry).trans (lasts.mem_iff table entry).symm

theorem lists_of_shows (shown : Shows backend keys store.begin tables) : store.Lists tables where
  distinct table := by
    unfold entriesOf
    rw [List.Nodup, List.pairwise_map, List.pairwise_filterMap]
    refine (List.pairwise_map.mp store.entries.distinct).imp_of_mem ?_
    rintro ⟨⟨owner, place⟩, entry⟩ ⟨⟨other, position⟩, twin⟩ member listed apart first found last met
    simp only [Option.ite_none_right_eq_some, Option.some.injEq] at found met
    obtain ⟨rfl, rfl⟩ := found
    obtain ⟨rfl, rfl⟩ := met
    have placed := (shown.placed (store.entries.mem_entries_iff.mp member)).2
    have positioned := (shown.placed (store.entries.mem_entries_iff.mp listed)).2
    intro same
    exact apart (Prod.ext rfl (placed.symm.trans (same ▸ positioned)))
  mem_iff table entry := by
    rw [mem_entriesOf_iff]
    constructor
    · rintro ⟨place, found⟩
      obtain ⟨member, rfl⟩ := shown.placed found
      rw [shown.held table entry.key member, Option.map_eq_some_iff] at found
      obtain ⟨value, held, same⟩ := found
      rw [held, ← congrArg StoredEntry.value same]
    · intro held
      refine ⟨backend.storedKey entry.key, ?_⟩
      rw [shown.held table entry.key (shown.used held), held, Option.map_some]

/-- Over keys that are kept apart the two kinds of store answer alike, and end with the same entries:
their clients see plain tables, changed by overlays. -/
theorem backends_implement_plainTables (actions : List StoreAction)
    (apart : Backend.KeptApart (actions.flatMap (·.keys))) :
    let expected := PlainTables.transactionalMap.run actions .empty
    let kept := fun backend => transactionalMap.run actions (.create backend)
    (∀ backend, (kept backend).1 = expected.1 ∧ (kept backend).2.Lists expected.2) ∧
      ∀ table, ((kept .memory).2.entriesOf table).Perm ((kept .mapped).2.entriesOf table) := by
  intro expected kept
  have ends (backend : Backend) :
      (kept backend).1 = expected.1 ∧ (kept backend).2.Lists expected.2 := by
    have uses (action : StoreAction) (member : action ∈ actions) (key : String)
        (used : key ∈ action.keys) : key ∈ actions.flatMap (·.keys) :=
      List.mem_flatMap_of_mem member used
    obtain ⟨answers, shown⟩ := (implements_plainTables backend apart).run actions uses
      (Shows.create backend _)
    exact ⟨answers, lists_of_shows shown⟩
  exact ⟨ends, fun table => (ends .memory).2.perm (ends .mapped).2 table⟩

def keyOf (length : Nat) : String := String.ofList (List.replicate length 'k')

/-- Writes on both sides of the longest key that is kept as it is, committed and given up. -/
def boundaryScript : List StoreAction :=
  [.transaction
      [.put .documents "users/1" [1], .put .revisionTombstones (keyOf 512) [2],
        .read .documents "users/1", .get .documents "users/1"] true,
    .read .documents "users/1",
    .transaction
      [.delete .revisionTombstones (keyOf 512), .get .revisionTombstones (keyOf 512),
        .delete .revisionTombstones (keyOf 512), .put .revisionTombstones (keyOf 513) [3],
        .read .revisionTombstones (keyOf 512)] false,
    .read .revisionTombstones (keyOf 512), .read .revisionTombstones (keyOf 513),
    .transaction
      [.put .revisionTombstones (keyOf 511) [4], .delete .documents "users/1",
        .put .documents "users/1" [5], .delete .revisionTombstones (keyOf 512)] true,
    .read .documents "users/1", .read .revisionTombstones (keyOf 511),
    .read .revisionTombstones (keyOf 512)]

def boundaryAnswers : List StoreAnswer :=
  [.written, .written, .found none, .found (some [1]),
    .found (some [1]),
    .deleted true, .found none, .deleted false, .written, .found (some [2]),
    .found (some [2]), .found none,
    .written, .deleted true, .written, .deleted true,
    .found (some [5]), .found (some [4]), .found none]

theorem keptApart_boundaryScript : Backend.KeptApart (boundaryScript.flatMap (·.keys)) := by
  have apart : Backend.KeptApart ["users/1", keyOf 511, keyOf 512, keyOf 513] :=
    ⟨by decide +kernel, by decide +kernel, by decide +kernel⟩
  exact apart.mono (by decide +kernel)

theorem backends_answer_boundaryScript :
    Backend.KeptApart (boundaryScript.flatMap (·.keys)) ∧
      (transactionalMap.run boundaryScript (.create .memory)).1 = boundaryAnswers ∧
      (transactionalMap.run boundaryScript (.create .mapped)).1 = boundaryAnswers := by
  have answered :
      (PlainTables.transactionalMap.run boundaryScript .empty).1 = boundaryAnswers := by
    decide +kernel
  have ends := (backends_implement_plainTables boundaryScript keptApart_boundaryScript).1
  exact ⟨keptApart_boundaryScript, (ends .memory).1.trans answered,
    (ends .mapped).1.trans answered⟩

end Partition

end DocumentReplication
