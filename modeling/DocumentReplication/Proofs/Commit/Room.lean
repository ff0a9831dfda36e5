import DocumentReplication.Proofs.ChangeVector.Width
import DocumentReplication.Proofs.Commit.Etags
import DocumentReplication.Proofs.Commit.Readability

/-!
What a slice can make a store write. The vectors a slice leads to are made of entries that its changes
or the records of the store have already, so none of them takes more than these together, and the
octets that count a field are enough wherever the slice and the store fit into memory.
-/

namespace DocumentReplication

open Text (utf8)

/-- What sources and their etags take at least. -/
def etagsSize (entries : List (String × Int64)) : Nat :=
  (entries.map fun entry => (utf8 entry.1).length + 1).sum

theorem etagsSize_cons (entry : String × Int64) (entries : List (String × Int64)) :
    etagsSize (entry :: entries) = (utf8 entry.1).length + 1 + etagsSize entries := rfl

theorem length_le_etagsSize (entries : List (String × Int64)) :
    entries.length ≤ etagsSize entries := by
  induction entries with
  | nil => exact Nat.le_refl 0
  | cons entry rest ih =>
      rw [etagsSize_cons, List.length_cons]
      omega

theorem length_lt_etagsSize {entries : List (String × Int64)} {entry : String × Int64}
    (member : entry ∈ entries) : (utf8 entry.1).length < etagsSize entries := by
  have counted := List.mem_map_of_mem (f := fun entry => (utf8 entry.1).length + 1) member
  exact List.le_sum_of_mem counted

namespace Dictionary

theorem etagsSize_place_le (source : String) (etag : Int64) (entries : List (String × Int64)) :
    etagsSize (place source etag entries) ≤ etagsSize entries + ((utf8 source).length + 1) := by
  induction entries with
  | nil => simp [place, etagsSize]
  | cons entry rest ih =>
      rw [place]
      split
      · simp only [etagsSize_cons]
        omega
      · simp only [etagsSize_cons]
        omega

theorem etagsSize_foldl_le
    {step : Dictionary String Int64 → String × Int64 → Dictionary String Int64}
    (grows : ∀ table entry, etagsSize (step table entry).entries ≤
      etagsSize table.entries + ((utf8 entry.1).length + 1))
    (entries : List (String × Int64)) (table : Dictionary String Int64) :
    etagsSize (entries.foldl step table).entries ≤ etagsSize table.entries + etagsSize entries := by
  induction entries generalizing table with
  | nil => exact Nat.le_refl _
  | cons entry rest ih =>
      have first := grows table entry
      have others := ih (step table entry)
      rw [List.foldl_cons, etagsSize_cons]
      omega

theorem etagsSize_ofList_le (entries : List (String × Int64)) :
    etagsSize (ofList entries).entries ≤ etagsSize entries := by
  have grows (table : Dictionary String Int64) (entry : String × Int64) :
      etagsSize (table.insert entry.1 entry.2).entries ≤
        etagsSize table.entries + ((utf8 entry.1).length + 1) :=
    etagsSize_place_le entry.1 entry.2 table.entries
  have built := etagsSize_foldl_le grows entries .empty
  simpa [ofList, empty, etagsSize] using built

end Dictionary

namespace StoredKind

/-- What a value takes at least. -/
def size : (kind : StoredKind) → kind.Value → Nat
  | text, value => (utf8 value).length
  | blob, value => value.length
  | etags, value => etagsSize value.entries
  | word32, _ | moment, _ => 0

variable {bytes rest : Bytes}

theorem length_of_split? {count : Nat} {taken : Bytes}
    (found : Bytes.split? count bytes = some (taken, rest)) :
    bytes.length = count + rest.length := by
  obtain ⟨rfl, width⟩ := Bytes.split?_eq_some_iff.mp found
  rw [List.length_append, width]

theorem length_of_readCount? {number : Nat} (found : readCount? bytes = some (number, rest)) :
    bytes.length = 8 + rest.length := by
  simp only [readCount?, Option.bind_eq_bind, Option.bind_eq_some_iff, Prod.exists, Option.pure_def,
    Option.some.injEq, Prod.mk.injEq] at found
  obtain ⟨taken, left, split, rfl, rfl⟩ := found
  exact length_of_split? split

theorem length_of_readSized? {content : Bytes} (found : readSized? bytes = some (content, rest)) :
    content.length + rest.length + 8 ≤ bytes.length := by
  simp only [readSized?, Option.bind_eq_bind, Option.bind_eq_some_iff, Prod.exists] at found
  obtain ⟨length, behind, counted, found⟩ := found
  have first := length_of_readCount? counted
  obtain ⟨rfl, -⟩ := Bytes.split?_eq_some_iff.mp found
  rw [List.length_append] at first
  omega

theorem length_of_readText? {value : String} (found : readText? bytes = some (value, rest)) :
    (utf8 value).length + rest.length + 8 ≤ bytes.length := by
  simp only [readText?, Option.bind_eq_bind, Option.bind_eq_some_iff, Prod.exists, Option.pure_def,
    Option.some.injEq, Prod.mk.injEq] at found
  obtain ⟨content, left, sized, text, decoded, rfl, rfl⟩ := found
  rw [Text.utf8_of_ofUtf8? decoded]
  exact length_of_readSized? sized

theorem length_of_readEtag? {source : String} {etag : Int64}
    (found : readEtag? bytes = some ((source, etag), rest)) :
    (utf8 source).length + 1 + rest.length ≤ bytes.length := by
  simp only [readEtag?, Option.bind_eq_bind, Option.bind_eq_some_iff, Prod.exists, Option.pure_def,
    Option.some.injEq, Prod.mk.injEq] at found
  obtain ⟨source, behind, text, taken, left, word, ⟨rfl, -⟩, rfl⟩ := found
  have name := length_of_readText? text
  have etag := length_of_split? word
  omega

theorem etagsSize_of_readEtags? {count : Nat} {entries : List (String × Int64)}
    (found : readEtags? count bytes = some (entries, rest)) :
    etagsSize entries + rest.length ≤ bytes.length := by
  induction count generalizing bytes entries with
  | zero =>
      cases found
      simp [etagsSize]
  | succ count ih =>
      simp only [readEtags?, Option.bind_eq_bind, Option.bind_eq_some_iff, Prod.exists,
        Option.pure_def, Option.some.injEq, Prod.mk.injEq] at found
      obtain ⟨source, etag, behind, one, others, left, more, rfl, rfl⟩ := found
      have first := length_of_readEtag? one
      have later := ih more
      simp only [etagsSize_cons]
      omega

theorem size_of_read? {kind : StoredKind} {value : kind.Value}
    (found : kind.read? bytes = some (value, rest)) :
    kind.size value + rest.length ≤ bytes.length := by
  cases kind with
  | text =>
      have text := length_of_readText? found
      rw [size]
      omega
  | blob =>
      have sized := length_of_readSized? found
      rw [size]
      omega
  | word32 =>
      simp only [read?, Option.bind_eq_bind, Option.bind_eq_some_iff, Prod.exists, Option.pure_def,
        Option.some.injEq, Prod.mk.injEq] at found
      obtain ⟨taken, left, split, rfl, rfl⟩ := found
      have word := length_of_split? split
      rw [size]
      omega
  | moment =>
      simp only [read?, Option.bind_eq_bind, Option.bind_eq_some_iff, Prod.exists, Option.pure_def,
        Option.some.injEq, Prod.mk.injEq] at found
      obtain ⟨written, left, text, moment, dated, rfl, rfl⟩ := found
      have date := length_of_readText? text
      rw [size]
      omega
  | etags =>
      simp only [read?, Option.bind_eq_bind, Option.bind_eq_some_iff, Prod.exists, Option.pure_def,
        Option.some.injEq, Prod.mk.injEq] at found
      obtain ⟨number, behind, counted, entries, left, listed, rfl, rfl⟩ := found
      have first := length_of_readCount? counted
      have others := etagsSize_of_readEtags? listed
      have kept := Dictionary.etagsSize_ofList_le entries
      rw [size]
      omega

end StoredKind

def StoredLayout.size : (layout : StoredLayout) → layout.Values → Nat
  | [], _ => 0
  | kind :: layout, (value, values) => kind.size value + size layout values

theorem StoredLayout.size_of_read? {layout : StoredLayout} {values : layout.Values}
    {bytes rest : Bytes} (found : layout.read? bytes = some (values, rest)) :
    layout.size values + rest.length ≤ bytes.length := by
  induction layout generalizing bytes with
  | nil =>
      cases found
      simp [size]
  | cons kind layout ih =>
      simp only [read?, Option.bind_eq_bind, Option.bind_eq_some_iff, Prod.exists, Option.pure_def,
        Option.some.injEq, Prod.mk.injEq] at found
      obtain ⟨value, behind, first, others, left, more, rfl, rfl⟩ := found
      have one := StoredKind.size_of_read? first
      have later := ih more
      rw [size]
      omega

theorem Stored.size_of_decode {ρ : Type} [Stored ρ] {bytes : Bytes} {record : ρ}
    (decoded : decode bytes = .ok record) :
    ∃ values, ofValues values = record ∧ (layout ρ).size values ≤ bytes.length := by
  simp only [decode] at decoded
  split at decoded
  · rename_i found
    cases decoded
    obtain ⟨⟨values, rest⟩, read, same⟩ := Option.map_eq_some_iff.mp found
    have room := StoredLayout.size_of_read? read
    exact ⟨values, same, by omega⟩
  · contradiction

/-- The vector of a record takes no more than the record. -/
theorem Table.length_vectorOf_le {table : Table} {bytes : Bytes} {record : table.Record}
    (decoded : table.decode bytes = .ok record) :
    (utf8 (table.vectorOf record)).length ≤ bytes.length := by
  cases table with
  | attachmentBlobs => exact Nat.zero_le _
  | _ =>
      obtain ⟨⟨_, _, _, _, _, _, _⟩, rfl, room⟩ := Stored.size_of_decode decoded
      refine Nat.le_trans ?_ room
      simp only [Stored.layout, StoredLayout.size, StoredKind.size, Table.vectorOf, Stored.ofValues]
      omega

theorem ReplicationState.size_le {bytes : Bytes} {state : ReplicationState}
    (decoded : Stored.decode bytes = .ok state) :
    etagsSize state.lastEtagFrom.entries + (utf8 state.changeVector).length ≤ bytes.length := by
  obtain ⟨values, rfl, room⟩ := Stored.size_of_decode decoded
  exact room

theorem ReplicationState.exists_octets {state : ReplicationState}
    (sources : etagsSize state.lastEtagFrom.entries < UInt64.size)
    (vector : (utf8 state.changeVector).length < UInt64.size) :
    ∃ bytes, Stored.octets state = .ok bytes := by
  have count := Nat.lt_of_le_of_lt (length_le_etagsSize state.lastEtagFrom.entries) sources
  have names : ∀ entry ∈ state.lastEtagFrom.entries, (utf8 entry.1).length < UInt64.size :=
    fun entry member => Nat.lt_trans (length_lt_etagsSize member) sources
  exact ⟨_, Stored.octets_eq_ok_iff.mpr ⟨⟨⟨count, names⟩, vector, trivial⟩, rfl⟩⟩

theorem Transaction.readState_eq_some {work : Transaction} {state : ReplicationState}
    (read : work.readState = .ok (some state)) :
    ∃ stored, work.lookup? (work.address .state Partition.stateKey) = some stored ∧
      Stored.decode stored.value = .ok state := by
  obtain ⟨bytes, got, decoded⟩ := Except.bind_eq_ok_iff.mp read
  cases bytes with
  | none => cases decoded
  | some bytes =>
      obtain ⟨found, same, known⟩ := Except.map_eq_ok_iff.mp decoded
      cases known
      obtain ⟨stored, there, rfl⟩ := Option.map_eq_some_iff.mp (get_eq_ok_iff.mp got).2
      exact ⟨stored, there, same⟩

/-- The entries of the vector in a record, none where it is no record. -/
def Table.entriesIn (table : Table) (bytes : Bytes) : List VectorEntry :=
  match table.decode bytes with
  | .ok record => ChangeVector.entriesIn (table.vectorOf record)
  | .error _ => []

theorem Table.room_entriesIn_le (table : Table) (bytes : Bytes) :
    ChangeVector.room (table.entriesIn bytes) ≤ 2 * bytes.length := by
  rw [entriesIn]
  split
  · rename_i record decoded
    have within := length_vectorOf_le decoded
    have entries := ChangeVector.room_entriesIn_le (table.vectorOf record)
    omega
  · exact Nat.zero_le _

theorem Context.etagsSize_recordEtag_le (context : Context) (source : String) (etag : Int64) :
    etagsSize (context.recordEtag source etag).etags.entries ≤
      etagsSize context.etags.entries + ((utf8 source).length + 1) :=
  Dictionary.etagsSize_place_le source _ context.etags.entries

theorem Slice.etagsSize_advance_le (reached stored : Dictionary String Int64) :
    etagsSize (advance reached stored).entries ≤
      etagsSize stored.entries + etagsSize reached.entries :=
  Dictionary.etagsSize_foldl_le
    (fun etags entry => Dictionary.etagsSize_place_le entry.1 _ etags.entries) reached.entries stored

/-- What the texts and contents of a change take. -/
def ChangeBody.size : ChangeBody → Nat
  | document id collection content =>
    (utf8 id).length + (utf8 collection).length + content.length
  | documentTombstone id collection => (utf8 id).length + (utf8 collection).length
  | attachment documentId name contentType hash =>
    (utf8 documentId).length + (utf8 name).length + (utf8 contentType).length + (utf8 hash).length
  | attachmentTombstone documentId name => (utf8 documentId).length + (utf8 name).length
  | counter documentId name values =>
    (utf8 documentId).length + (utf8 name).length + values.length
  | timeSeries documentId name collection _ segment =>
    (utf8 documentId).length + (utf8 name).length + (utf8 collection).length + segment.length
  | timeSeriesDeletedRange documentId name collection _ _ =>
    (utf8 documentId).length + (utf8 name).length + (utf8 collection).length
  | revisionTombstone revision collection => (utf8 revision).length + (utf8 collection).length

def Change.size (change : Change) : Nat :=
  (utf8 change.header.changeVector).length + change.body.size

/-- What a slice takes without the payloads. -/
def Slice.size (slice : Slice) : Nat :=
  (utf8 slice.source).length + (slice.changes.map Change.size).sum

def Partition.size (store : Partition) : Nat :=
  (store.entries.entries.map fun entry => entry.2.value.length).sum

/-- Whether a slice and a store leave room in an address space of 64 bits. -/
def Slice.FitsWith (slice : Slice) (store : Partition) : Prop :=
  store.size + slice.size < 2 ^ 63

instance (slice : Slice) (store : Partition) : Decidable (slice.FitsWith store) :=
  inferInstanceAs (Decidable (_ < _))

/-- An entry that a record of the store or a change of the slice has in its vector. -/
def Slice.Offers (slice : Slice) (store : Partition) (entry : VectorEntry) : Prop :=
  entry ∈ store.entries.entries.flatMap (fun entry => entry.1.1.entriesIn entry.2.value) ++
      slice.changes.flatMap (fun change => ChangeVector.entriesIn change.header.changeVector) ∧
    entry.isTransactional = false

variable {slice : Slice} {store : Partition} {vector : ChangeVector} {change : Change}
  {ignored : List String}

/-- No vector that a slice can lead to is too long to be stored. -/
theorem Slice.FitsWith.length_text_lt (fits : slice.FitsWith store)
    (all : ∀ entry ∈ vector.entries, slice.Offers store entry) :
    (utf8 vector.text).length < UInt64.size := by
  have records := ChangeVector.room_flatMap_le (fun entry : (Table × String) × StoredEntry =>
    entry.1.1.room_entriesIn_le entry.2.value) store.entries.entries
  have vectors (change : Change) :
      ChangeVector.room (ChangeVector.entriesIn change.header.changeVector) ≤ 2 * change.size := by
    have entries := ChangeVector.room_entriesIn_le change.header.changeVector
    rw [Change.size]
    omega
  have changes := ChangeVector.room_flatMap_le vectors slice.changes
  have among := ChangeVector.room_le_of_subset fun entry member => (all entry member).1
  have written := vector.length_text_le
  have small : store.size + slice.size < 2 ^ 63 := fits
  have limit : UInt64.size = 2 * 2 ^ 63 := rfl
  rw [ChangeVector.room_append] at among
  rw [Partition.size, Slice.size] at small
  omega

theorem Slice.FitsWith.length_vectorText_lt {workspace : Workspace} {floor : ChangeVector}
    {text : String} (fits : slice.FitsWith store)
    (ahead : workspace.Ahead (slice.Offers store) ignored floor)
    (kept : workspace.context.vectorText = some text) : (utf8 text).length < UInt64.size := by
  obtain ⟨current, accumulated, -, all⟩ := ahead.current
  obtain ⟨vector, rfl, legible, -⟩ := ahead.canonical text kept
  rw [Context.accumulated, kept] at accumulated
  obtain rfl : vector = current :=
    Except.ok.inj ((ChangeVector.parse_text legible).symm.trans accumulated)
  exact fits.length_text_lt all

theorem Change.exists_record? {text : String} (small : change.size < UInt64.size)
    (fits : (utf8 text).length < UInt64.size) : ∃ record, change.record? text = .ok record := by
  obtain ⟨header, body⟩ := change
  have within : body.size < UInt64.size := Nat.lt_of_le_of_lt (Nat.le_add_left ..) small
  cases body with
  | attachmentTombstone => exact ⟨none, rfl⟩
  | _ =>
      simp only [ChangeBody.size] at within
      refine ⟨_, congrArg (Except.map some) (Stored.octets_eq_ok_iff.mpr ⟨?_, rfl⟩)⟩
      simp only [Stored.layout, Stored.values, StoredLayout.Fits, StoredKind.Fits, and_true, true_and]
      omega

theorem Slice.FitsWith.size_change_lt (fits : slice.FitsWith store)
    (member : change ∈ slice.changes) : change.size < UInt64.size := by
  have one : change.size ≤ (slice.changes.map Change.size).sum :=
    List.le_sum_of_mem (List.mem_map_of_mem member)
  have small : store.size + slice.size < 2 ^ 63 := fits
  have limit : UInt64.size = 2 * 2 ^ 63 := rfl
  rw [Slice.size] at small
  omega

theorem Slice.carries_offers (member : change ∈ slice.changes) (store : Partition)
    (ignored : List String) : change.Carries ignored (slice.Offers store) := by
  intro incoming dropped read entry within
  refine ⟨List.mem_append_right _ (List.mem_flatMap.mpr ⟨change, member, ?_⟩),
    change.carries_plain ignored incoming dropped read entry within⟩
  obtain ⟨vector, parsed, rfl, -⟩ := Change.incoming_eq_ok_iff.mp read
  rw [ChangeVector.entriesIn_of_parse parsed]
  exact (List.mem_filter.mp (ChangeVector.mem_of_mem_without within)).1

namespace Partition

theorem mem_entriesIn {address : Table × String} {stored : StoredEntry}
    {record : address.1.Record} (found : store.begin.lookup? address = some stored)
    (decoded : address.1.decode stored.value = .ok record)
    (parsed : ChangeVector.parse (address.1.vectorOf record) = .ok vector) :
    vector.entries ⊆
      store.entries.entries.flatMap (fun entry => entry.1.1.entriesIn entry.2.value) := by
  intro entry within
  refine List.mem_flatMap.mpr ⟨(address, stored), store.entries.mem_entries_iff.mpr found, ?_⟩
  simpa only [Table.entriesIn, decoded, ChangeVector.entriesIn_of_parse parsed] using within

theorem Reachable.readable_offers (reachable : store.Reachable) (slice : Slice) :
    store.begin.Readable (slice.Offers store) := by
  intro address stored found records
  obtain ⟨record, vector, decoded, parsed, plain⟩ := reachable.readable address stored found records
  refine ⟨record, vector, decoded, parsed, fun entry member => ⟨?_, plain entry member⟩⟩
  exact List.mem_append_left _ (mem_entriesIn found decoded parsed member)

theorem Reachable.persists_offers (reachable : store.Reachable) (slice : Slice) :
    store.begin.Persists (slice.Offers store) := by
  obtain ⟨state, known, read, parsed, plain⟩ := reachable.persists
  refine ⟨state, known, read, parsed, fun entry member => ⟨?_, plain entry member⟩⟩
  cases state with
  | none =>
      cases parsed
      cases member
  | some state =>
      obtain ⟨stored, found, decoded⟩ := Transaction.readState_eq_some read
      exact List.mem_append_left _ (mem_entriesIn found decoded parsed member)

theorem length_value_le {address : Table × String} {stored : StoredEntry}
    (found : store.begin.lookup? address = some stored) : stored.value.length ≤ store.size :=
  List.le_sum_of_mem (List.mem_map.mpr ⟨_, store.entries.mem_entries_iff.mpr found, rfl⟩)

theorem size_state_le {state : Option ReplicationState} (read : store.begin.readState = .ok state) :
    etagsSize (state.getD .empty).lastEtagFrom.entries +
      (utf8 (state.getD .empty).changeVector).length ≤ store.size := by
  cases state with
  | none => exact Nat.zero_le _
  | some state =>
      obtain ⟨stored, found, decoded⟩ := Transaction.readState_eq_some read
      exact Nat.le_trans (ReplicationState.size_le decoded) (length_value_le found)

end Partition

/-- The state a slice leaves can be stored. -/
theorem Slice.FitsWith.exists_octets {context : Context} {state : Option ReplicationState}
    {text : Option String} (fits : slice.FitsWith store)
    (read : store.begin.readState = .ok state) (nothing : context.etags = .empty)
    (short : ∀ written, text = some written → (utf8 written).length < UInt64.size) :
    ∃ bytes, Stored.octets (slice.nextState context (state.getD .empty) text) = .ok bytes := by
  have known := Partition.size_state_le read
  have advanced := etagsSize_advance_le (context.recordEtag slice.source slice.lastEtag).etags
    (state.getD .empty).lastEtagFrom
  have recorded := context.etagsSize_recordEtag_le slice.source slice.lastEtag
  have empty : etagsSize context.etags.entries = 0 := by
    rw [nothing]
    rfl
  have small : store.size + slice.size < 2 ^ 63 := fits
  have limit : UInt64.size = 2 * 2 ^ 63 := rfl
  rw [Slice.size] at small
  refine ReplicationState.exists_octets ?_ ?_
  · simp only [nextState]
    omega
  · cases text with
    | none =>
        simp only [nextState, Option.getD_none]
        omega
    | some written => exact short written rfl

end DocumentReplication
