import DocumentReplication.Commit.Slice
import DocumentReplication.Proofs.ChangeVector.Text
import DocumentReplication.Proofs.Store.View

/-!
What applying a change does. Either the change is known and nothing is written, or it is written with
a vector that covers the change and what was stored before.

Changes that meet the same record share a home table, so what makes one of them known is a matter of
the home, the key and the store alone.
-/

namespace DocumentReplication

open Work

variable {change other : Change} {payloads : Dictionary String Bytes} {ignored : List String}
  {before middle after : Transaction} {vector : ChangeVector} {text : String}

/-- The vector a change with this home meets. -/
def Transaction.homeVector (work : Transaction) (home : Table) (key : String) :
    Except Fault (Option String) := do
  match home with
  | .documents =>
    match ← work.vectorAt .documents key with
    | some vector => return some vector
    | none => work.vectorAt .tombstones key
  | table => work.vectorAt table key

namespace Change

/-- The table a change is compared with first. -/
def home (change : Change) : Table :=
  match change.body with
  | .documentTombstone .. => .documents
  | _ => change.table

theorem storedVector_eq (change : Change) (work : Transaction) :
    change.storedVector work = work.homeVector change.home change.key := by
  obtain ⟨header, body⟩ := change
  cases body <;> rfl

theorem home_eq_revisionTombstones :
    change.home = .revisionTombstones ↔ change.kind = .revisionTombstone := by
  obtain ⟨header, body⟩ := change
  cases body <;> simp [home, table, kind, ChangeBody.kind]

theorem table_of_revision (revision : change.kind = .revisionTombstone) :
    change.table = .revisionTombstones := by
  obtain ⟨header, body⟩ := change
  cases body <;> simp_all [table, kind, ChangeBody.kind]

/-- The tables that a change with this home may write to or delete from. -/
def tablesOf (home : Table) : List Table :=
  match home with
  | .documents => [.documents, .tombstones]
  | table => [table]

theorem table_mem (change : Change) : change.table ∈ tablesOf change.home := by
  obtain ⟨header, body⟩ := change
  cases body <;> simp [home, table, tablesOf]

theorem displaced_mem {table : Table} (displaced : change.displaced? = some table) :
    table ∈ tablesOf change.home := by
  obtain ⟨header, body⟩ := change
  cases body <;> cases displaced <;> simp [home, Change.table, tablesOf]

theorem home_ne_tombstones (change : Change) : change.home ≠ .tombstones := by
  obtain ⟨header, body⟩ := change
  cases body <;> simp [home, table]

/-- No table is shared between homes; a tombstone is at home with the documents. -/
theorem home_of_mem {home table : Table} (main : home ≠ .tombstones)
    (first : table ∈ tablesOf change.home) (second : table ∈ tablesOf home) :
    change.home = home := by
  obtain ⟨header, body⟩ := change
  cases body <;> cases home <;> simp_all [Change.home, Change.table, tablesOf]

theorem home_of_shared {table : Table} (first : table ∈ tablesOf change.home)
    (second : table ∈ tablesOf other.home) : change.home = other.home :=
  home_of_mem other.home_ne_tombstones first second

theorem blobs_not_mem (change : Change) : .attachmentBlobs ∉ tablesOf change.home := by
  obtain ⟨header, body⟩ := change
  cases body <;> simp [home, table, tablesOf]

theorem state_not_mem (change : Change) : .state ∉ tablesOf change.home := by
  obtain ⟨header, body⟩ := change
  cases body <;> simp [home, table, tablesOf]

theorem home_ne_state (change : Change) : change.home ≠ .state := by
  obtain ⟨header, body⟩ := change
  cases body <;> simp [home, table]

/-- A store holds what makes a change known: the tombstone of the same revision, or a record whose
vector, as far as it is not ignored, covers the change. -/
inductive Known (change : Change) (ignored : List String) (work : Transaction) : Prop
  | noted {record : Bytes} (revision : change.kind = .revisionTombstone)
      (found : work.get .revisionTombstones change.key = .ok (some record))
  | covered {incoming stored : ChangeVector} {dropped : Bool} {text : String}
      (compared : change.kind ≠ .revisionTombstone)
      (read : change.incoming ignored = .ok (incoming, dropped))
      (found : work.homeVector change.home change.key = .ok (some text))
      (parsed : ChangeVector.parse text = .ok stored)
      (covers : (stored.without ignored).covers incoming = true)

/-- How a change comes by its vector: it meets nothing, or something that does not know all of it. -/
inductive Settles (change : Change) (ignored : List String) (before : Transaction)
    (incoming : ChangeVector) : ChangeVector → Prop
  | alone (absent : change.kind ≠ .revisionTombstone →
      before.homeVector change.home change.key = .ok none) :
      Settles change ignored before incoming incoming
  | met {stored written : ChangeVector} {text : String}
      (compared : change.kind ≠ .revisionTombstone)
      (found : before.homeVector change.home change.key = .ok (some text))
      (parsed : ChangeVector.parse text = .ok stored)
      (settled : incoming.settle (stored.without ignored) = some written) :
      Settles change ignored before incoming written

/-- A vector that a change may be written with. -/
structure Raises (change : Change) (ignored : List String) (before : Transaction)
    (vector : ChangeVector) : Prop where
  legible : vector.Legible
  plain : vector.countIn ignored = 0
  covers : ∃ incoming dropped, change.incoming ignored = .ok (incoming, dropped) ∧
    vector.covers incoming = true
  keeps : change.kind ≠ .revisionTombstone → ∀ text stored,
    before.homeVector change.home change.key = .ok (some text) →
      ChangeVector.parse text = .ok stored → vector.covers (stored.without ignored) = true
  /-- Transactional entries only come from the store. -/
  stripped : (∀ text stored, before.homeVector change.home change.key = .ok (some text) →
    ChangeVector.parse text = .ok stored → stored.withoutTransactional = stored) →
      vector.withoutTransactional = vector
  settles : ∃ incoming dropped, change.incoming ignored = .ok (incoming, dropped) ∧
    change.Settles ignored before incoming vector

/-- The content of an attachment is stored, out of the payloads or already before. -/
def Provides (change : Change) (payloads : Dictionary String Bytes) (before after : Transaction) :
    Prop :=
  match change.hash? with
  | some hash =>
    (∃ content, payloads.get? hash = some content ∧
      before.put .attachmentBlobs hash content = .ok after) ∨
    (after = before ∧ ∃ content, before.get .attachmentBlobs hash = .ok (some content))
  | none => after = before

/-- The record of a change is stored and what it displaces is deleted. -/
def Writes (change : Change) (text : String) (before after : Transaction) : Prop :=
  ∃ record between, change.record? text = .ok record ∧
    (match record with
      | some bytes => before.put change.table change.key bytes = .ok between
      | none => between = before) ∧
    match change.displaced? with
    | some table => ∃ present, between.delete table change.key = .ok (present, after)
    | none => after = between

/-- The transaction before and after a change was applied, and the vector it was written with. -/
inductive Applied (change : Change) (payloads : Dictionary String Bytes) (ignored : List String) :
    Transaction → Transaction → Option ChangeVector → Prop
  | known {work : Transaction} : change.Known ignored work →
      Applied change payloads ignored work work none
  | written {before middle after : Transaction} {vector : ChangeVector} :
      change.Raises ignored before vector → change.Provides payloads before middle →
      change.Writes vector.text middle after →
      Applied change payloads ignored before after (some vector)

end Change

/-- Contexts that agree on all that is to be persisted. -/
structure Context.SameProgress (before after : Context) : Prop where
  vectorText : after.vectorText = before.vectorText
  etags : after.etags = before.etags
  ignored : after.ignored = before.ignored

theorem Context.SameProgress.refl (context : Context) : context.SameProgress context :=
  ⟨rfl, rfl, rfl⟩

theorem Context.SameProgress.trans {first between last : Context}
    (one : first.SameProgress between) (two : between.SameProgress last) :
    first.SameProgress last :=
  ⟨two.vectorText.trans one.vectorText, two.etags.trans one.etags, two.ignored.trans one.ignored⟩

namespace Change

theorem incoming_eq_ok_iff {incoming : ChangeVector} {dropped : Bool} :
    change.incoming ignored = .ok (incoming, dropped) ↔
      ∃ vector, ChangeVector.parse change.header.changeVector = .ok vector ∧
        incoming = vector.withoutTransactional.without ignored ∧
        dropped = decide (0 < vector.withoutTransactional.countIn ignored) := by
  simp only [Change.incoming, Except.map_eq_ok_iff, ChangeVector.storable, Prod.mk.injEq]
  constructor
  · rintro ⟨vector, parsed, same, flag⟩
    exact ⟨vector, parsed, same.symm, flag.symm⟩
  · rintro ⟨vector, parsed, same, flag⟩
    exact ⟨vector, parsed, same.symm, flag.symm⟩

theorem legible_incoming {incoming : ChangeVector} {dropped : Bool}
    (read : change.incoming ignored = .ok (incoming, dropped)) :
    incoming.Legible ∧ incoming.Storable ignored := by
  obtain ⟨vector, parsed, rfl, -⟩ := incoming_eq_ok_iff.mp read
  exact ⟨((ChangeVector.legible_of_parse parsed).withoutTransactional).without ignored,
    ChangeVector.storable_filtered vector ignored⟩

theorem attempt_provideContent {workspace next : Workspace}
    (done : attempt (change.provideContent payloads) workspace = .ok ((), next)) :
    change.Provides payloads workspace.transaction next.transaction ∧
      workspace.context.SameProgress next.context := by
  unfold provideContent at done
  unfold Provides hash? ChangeBody.hash?
  cases shape : change.body with
  | attachment documentId name contentType hash =>
      simp only [shape] at done
      split at done
      · rename_i content found
        simp only [Workspace.attempt_put, Except.map_eq_ok_iff, Prod.mk.injEq, true_and] at done
        obtain ⟨transaction, put, rfl⟩ := done
        exact ⟨.inl ⟨content, found, put⟩, .refl _⟩
      · simp only [attempt_bind, Workspace.attempt_fetch, Except.bind_eq_ok_iff,
          Except.map_eq_ok_iff] at done
        obtain ⟨⟨content, left⟩, ⟨value, found, same⟩, done⟩ := done
        cases same
        cases content with
        | none => simp at done
        | some content =>
            simp only [Option.isNone_some, Bool.false_eq_true, if_false, attempt_pure,
              Except.ok.injEq, Prod.mk.injEq, true_and] at done
            subst done
            exact ⟨.inr ⟨rfl, content, found⟩, .refl _⟩
  | _ =>
      simp only [shape, attempt_pure, Except.ok.injEq, Prod.mk.injEq, true_and] at done
      subst done
      exact ⟨rfl, .refl _⟩

theorem attempt_putRecord {table : Table} {key : String} {record : Bytes}
    {workspace next : Workspace}
    (done : attempt (Workspace.putRecord table key record) workspace = .ok ((), next)) :
    workspace.transaction.put table key record = .ok next.transaction ∧
      workspace.context.SameProgress next.context := by
  simp only [Workspace.putRecord, attempt_bind, Workspace.attempt_changeContext, Except.ok_bind,
    Workspace.attempt_put, Except.map_eq_ok_iff, Prod.mk.injEq, true_and] at done
  obtain ⟨transaction, put, rfl⟩ := done
  exact ⟨put, rfl, rfl, rfl⟩

theorem attempt_displace {workspace next : Workspace}
    (done : attempt (do if let some table := change.displaced? then
      Workspace.delete table change.key) workspace = .ok ((), next)) :
    (match change.displaced? with
      | some table => ∃ present,
          workspace.transaction.delete table change.key = .ok (present, next.transaction)
      | none => next.transaction = workspace.transaction) ∧
      workspace.context.SameProgress next.context := by
  cases displaced : change.displaced? with
  | none =>
      simp only [displaced, attempt_pure, Except.ok.injEq, Prod.mk.injEq, true_and] at done
      subst done
      exact ⟨rfl, .refl _⟩
  | some table =>
      simp only [displaced, Workspace.attempt_delete, Except.map_eq_ok_iff, Prod.mk.injEq,
        true_and] at done
      obtain ⟨⟨present, transaction⟩, deleted, rfl⟩ := done
      exact ⟨⟨present, deleted⟩, .refl _⟩

theorem attempt_write {workspace next : Workspace}
    (done : attempt (change.write vector) workspace = .ok ((), next)) :
    change.Writes vector.text workspace.transaction next.transaction ∧
      workspace.context.SameProgress next.context := by
  simp only [Change.write, attempt_bind, attempt_ofExcept, Except.bind_eq_ok_iff,
    Except.map_eq_ok_iff] at done
  obtain ⟨_, ⟨record, encoded, rfl⟩, done⟩ := done
  cases record with
  | none =>
      obtain ⟨displaced, progress⟩ := attempt_displace done
      exact ⟨⟨none, _, encoded, rfl, displaced⟩, progress⟩
  | some record =>
      simp only [attempt_bind, Except.bind_eq_ok_iff] at done
      obtain ⟨⟨_, between⟩, stored, done⟩ := done
      obtain ⟨put, first⟩ := attempt_putRecord stored
      obtain ⟨displaced, second⟩ := attempt_displace done
      exact ⟨⟨some record, _, encoded, put, displaced⟩, first.trans second⟩

def settling (ignored : List String) (incoming : ChangeVector) (stored : Option String) :
    Command (Option ChangeVector) :=
  stored.elim (pure (some incoming)) fun text => do
    let known ← ofExcept (ChangeVector.parse text)
    return incoming.settle (known.without ignored)

theorem resolve_eq (change : Change) (stored : Option String) :
    change.resolve stored = (do
      let ignored := (← get).context.ignored
      let (incoming, dropped) ← ofExcept (change.incoming ignored)
      if dropped then Workspace.changeContext (·.skipValidation)
      settling ignored incoming stored) := by
  cases stored <;> rfl

theorem attempt_settling {workspace next : Workspace} {incoming : ChangeVector}
    {stored : Option String} {result : Option ChangeVector}
    (done : attempt (settling ignored incoming stored) workspace = .ok (result, next)) :
    next = workspace ∧ (stored = none → result = some incoming) ∧
      ∀ text, stored = some text → ∃ known, ChangeVector.parse text = .ok known ∧
        result = incoming.settle (known.without ignored) := by
  cases stored with
  | none =>
      simp only [settling, Option.elim_none, attempt_pure, Except.ok.injEq, Prod.mk.injEq] at done
      exact ⟨done.2.symm, fun _ => done.1.symm, nofun⟩
  | some text =>
      simp only [settling, Option.elim_some, attempt_bind, attempt_ofExcept, attempt_pure,
        Except.bind_eq_ok_iff, Except.map_eq_ok_iff, Except.ok.injEq] at done
      obtain ⟨_, ⟨known, parsed, rfl⟩, same⟩ := done
      cases same
      refine ⟨rfl, nofun, fun other same => ?_⟩
      cases same
      exact ⟨known, parsed, rfl⟩

theorem attempt_resolve {workspace next : Workspace} {stored : Option String}
    {result : Option ChangeVector}
    (done : attempt (change.resolve stored) workspace = .ok (result, next)) :
    next.transaction = workspace.transaction ∧ workspace.context.SameProgress next.context ∧
      ∃ incoming dropped, change.incoming workspace.context.ignored = .ok (incoming, dropped) ∧
        (stored = none → result = some incoming) ∧
        ∀ text, stored = some text → ∃ known, ChangeVector.parse text = .ok known ∧
          result = incoming.settle (known.without workspace.context.ignored) := by
  simp only [resolve_eq, attempt_bind, attempt_get, attempt_ofExcept, Except.ok_bind,
    Except.bind_eq_ok_iff, Except.map_eq_ok_iff] at done
  obtain ⟨_, ⟨⟨incoming, dropped⟩, read, rfl⟩, done⟩ := done
  cases dropped with
  | false =>
      obtain ⟨rfl, outcome⟩ := attempt_settling done
      exact ⟨rfl, .refl _, incoming, false, read, outcome⟩
  | true =>
      simp only [if_true, attempt_bind, Workspace.attempt_changeContext, Except.ok_bind] at done
      obtain ⟨rfl, outcome⟩ := attempt_settling done
      exact ⟨rfl, ⟨rfl, rfl, rfl⟩, incoming, true, read, outcome⟩

theorem raises_incoming {incoming : ChangeVector} {dropped : Bool}
    (read : change.incoming ignored = .ok (incoming, dropped))
    (absent : change.kind ≠ .revisionTombstone →
      before.homeVector change.home change.key = .ok none) :
    change.Raises ignored before incoming where
  legible := (legible_incoming read).1
  plain := (legible_incoming read).2.countIn
  covers := ⟨incoming, dropped, read, ChangeVector.covers_refl incoming⟩
  keeps compared text stored found _ := by
    rw [absent compared] at found
    cases found
  stripped _ := (legible_incoming read).2.withoutTransactional
  settles := ⟨incoming, dropped, read, .alone absent⟩

theorem raises_settled {incoming known written : ChangeVector} {dropped : Bool}
    (compared : change.kind ≠ .revisionTombstone)
    (read : change.incoming ignored = .ok (incoming, dropped))
    (found : before.homeVector change.home change.key = .ok (some text))
    (parsed : ChangeVector.parse text = .ok known)
    (settled : incoming.settle (known.without ignored) = some written) :
    change.Raises ignored before written := by
  obtain ⟨legible, storable⟩ := legible_incoming read
  obtain ⟨coversIncoming, coversKnown⟩ := ChangeVector.settle_covers settled
  have knownLegible := (ChangeVector.legible_of_parse parsed).without ignored
  refine ⟨?_, ?_, ⟨incoming, dropped, read, coversIncoming⟩, ?_, fun plain => ?_,
    incoming, dropped, read, .met compared found parsed settled⟩
  · rcases ChangeVector.settle_cases settled with ⟨rfl, -⟩ | rfl
    · exact legible
    · exact legible.merge knownLegible
  · rcases ChangeVector.settle_cases settled with ⟨rfl, -⟩ | rfl
    · exact storable.countIn
    · exact ChangeVector.countIn_merge storable.countIn (ChangeVector.countIn_without known ignored)
  · intro _ other stored otherFound otherParsed
    rw [found] at otherFound
    cases otherFound
    rw [parsed] at otherParsed
    cases otherParsed
    exact coversKnown
  · have knownPlain := ChangeVector.isTransactional_of_stripped (plain text known found parsed)
    apply ChangeVector.filter_eq_self
    intro entry member
    rw [Bool.not_eq_true']
    rcases ChangeVector.settle_cases settled with ⟨rfl, -⟩ | rfl
    · exact (storable entry member).1
    · refine ChangeVector.forall_mem_merge ?_ (fun entry member => (storable entry member).1)
        (fun entry member => knownPlain entry (List.mem_filter.mp member).1) entry member
      intro entry seen entryPlain seenPlain _
      exact VectorEntry.isTransactional_advance entryPlain seenPlain

theorem provides_of_revision (revision : change.kind = .revisionTombstone) :
    change.Provides payloads before before := by
  obtain ⟨header, body⟩ := change
  cases body <;> simp_all [Provides, hash?, ChangeBody.hash?, kind, ChangeBody.kind]

theorem attempt_applyRevision {workspace next : Workspace} {result : Option ChangeVector}
    (revision : change.kind = .revisionTombstone)
    (done : attempt change.applyRevision workspace = .ok (result, next)) :
    change.Applied payloads workspace.context.ignored workspace.transaction next.transaction
      result ∧ workspace.context.SameProgress next.context := by
  simp only [Change.applyRevision, attempt_bind, Workspace.attempt_fetch,
    Except.bind_eq_ok_iff, Except.map_eq_ok_iff] at done
  obtain ⟨_, ⟨found, fetched, rfl⟩, done⟩ := done
  cases found with
  | some record =>
      cases done
      exact ⟨.known (.noted revision fetched), .refl _⟩
  | none =>
      simp only [Option.isSome_none, Bool.false_eq_true, if_false, attempt_bind, attempt_get,
        Except.ok_bind, attempt_ofExcept, attempt_pure, Except.bind_eq_ok_iff,
        Except.map_eq_ok_iff] at done
      obtain ⟨_, ⟨⟨incoming, dropped⟩, read, rfl⟩, ⟨_, written⟩, wrote, same⟩ := done
      cases same
      obtain ⟨writes, progress⟩ := attempt_write wrote
      exact ⟨.written (raises_incoming read (absurd revision)) (provides_of_revision revision) writes,
        progress⟩

/-- All that a successful application can have done. -/
theorem attempt_apply {workspace next : Workspace} {result : Option ChangeVector}
    (done : attempt (change.apply payloads) workspace = .ok (result, next)) :
    change.Applied payloads workspace.context.ignored workspace.transaction next.transaction
      result ∧ workspace.context.SameProgress next.context := by
  unfold Change.apply at done
  split at done
  · rename_i revision
    exact attempt_applyRevision revision done
  · rename_i compared
    simp only [attempt_bind, attempt_get, attempt_ofExcept, Except.ok_bind, Except.bind_eq_ok_iff,
      Except.map_eq_ok_iff, storedVector_eq] at done
    obtain ⟨_, ⟨stored, found, rfl⟩, ⟨resolved, settledIn⟩, settled, done⟩ := done
    obtain ⟨same, progress, incoming, dropped, read, fresh, met⟩ := attempt_resolve settled
    cases resolved with
    | none =>
        cases done
        -- Only a stored vector can make the change known.
        cases stored with
        | none => cases fresh rfl
        | some text =>
            obtain ⟨known, parsed, outcome⟩ := met text rfl
            have covers := ChangeVector.settle_eq_none_iff.mp outcome.symm
            rw [same]
            exact ⟨.known (.covered compared read found parsed covers), progress⟩
    | some vector =>
        simp only [attempt_bind, attempt_pure, Except.bind_eq_ok_iff] at done
        obtain ⟨⟨_, provided⟩, provides, ⟨_, written⟩, wrote, outcome⟩ := done
        cases outcome
        obtain ⟨content, first⟩ := attempt_provideContent provides
        obtain ⟨writes, second⟩ := attempt_write wrote
        have raises : change.Raises workspace.context.ignored workspace.transaction vector := by
          cases stored with
          | none =>
              cases fresh rfl
              exact raises_incoming read fun _ => found
          | some text =>
              obtain ⟨known, parsed, outcome⟩ := met text rfl
              exact raises_settled compared read found parsed outcome.symm
        rw [same] at content
        exact ⟨.written raises content writes, (progress.trans first).trans second⟩

theorem Provides.cases (provides : change.Provides payloads before after) :
    (∃ hash content, change.hash? = some hash ∧ payloads.get? hash = some content ∧
      before.put .attachmentBlobs hash content = .ok after) ∨
    after = before ∧ ∀ hash, change.hash? = some hash →
      ∃ content, before.get .attachmentBlobs hash = .ok (some content) := by
  unfold Provides at provides
  split at provides
  · rename_i hash needed
    rcases provides with ⟨content, provided, put⟩ | ⟨same, found⟩
    · exact .inl ⟨hash, content, needed, provided, put⟩
    · refine .inr ⟨same, fun other otherNeeded => ?_⟩
      cases needed.symm.trans otherNeeded
      exact found
  · rename_i nothing
    refine .inr ⟨provides, fun hash needed => ?_⟩
    cases nothing.symm.trans needed

theorem Provides.base (provides : change.Provides payloads before after) :
    after.base = before.base := by
  rcases provides.cases with ⟨hash, content, -, -, put⟩ | ⟨rfl, -⟩
  · exact Transaction.base_put put
  · rfl

theorem Provides.lookup_of_ne (provides : change.Provides payloads before after)
    {address : Table × String} (apart : address.1 ≠ .attachmentBlobs) :
    after.lookup? address = before.lookup? address := by
  rcases provides.cases with ⟨hash, content, -, -, put⟩ | ⟨rfl, -⟩
  · rw [Transaction.lookup?_put put, if_neg fun same => apart (congrArg Prod.fst same).symm]
  · rfl

/-- What is found after the content was provided was there before, unless it is the content. -/
theorem Provides.lookup_cases (provides : change.Provides payloads before after)
    {address : Table × String} {entry : StoredEntry} (found : after.lookup? address = some entry) :
    before.lookup? address = some entry ∨
      ∃ content, payloads.get? entry.key = some content ∧ entry.value = content ∧
        address = before.address .attachmentBlobs entry.key := by
  rcases provides.cases with ⟨hash, content, -, provided, put⟩ | ⟨rfl, -⟩
  · rw [Transaction.lookup?_put put] at found
    split at found
    · rename_i same
      cases found
      exact .inr ⟨content, provided, rfl, same.symm⟩
    · exact .inl found
  · exact .inl found

theorem Writes.base (writes : change.Writes text before after) : after.base = before.base := by
  obtain ⟨record, between, -, stored, displaced⟩ := writes
  have first : between.base = before.base := by
    cases record with
    | none => rw [stored]
    | some bytes => exact Transaction.base_put stored
  split at displaced
  · obtain ⟨present, deleted⟩ := displaced
    rw [Transaction.base_delete deleted, first]
  · rw [displaced, first]

theorem Writes.lookup_of_ne (writes : change.Writes text before after) {address : Table × String}
    (apart : ∀ table ∈ tablesOf change.home, before.address table change.key ≠ address) :
    after.lookup? address = before.lookup? address := by
  obtain ⟨record, between, -, stored, displaced⟩ := writes
  have first : between.base = before.base ∧ between.lookup? address = before.lookup? address := by
    cases record with
    | none => exact ⟨by rw [stored], by rw [stored]⟩
    | some bytes =>
        refine ⟨Transaction.base_put stored, ?_⟩
        rw [Transaction.lookup?_put stored, if_neg (apart _ change.table_mem)]
  split at displaced
  · rename_i table displaces
    obtain ⟨present, deleted⟩ := displaced
    have same : between.address table change.key = before.address table change.key := by
      rw [Transaction.address, first.1, Transaction.address]
    rw [Transaction.lookup?_delete deleted, same, if_neg (apart _ (displaced_mem displaces)),
      first.2]
  · rw [displaced, first.2]

/-- What is found after a change was written was there before, unless it is the record. -/
theorem Writes.lookup_cases (writes : change.Writes text before after) {address : Table × String}
    {entry : StoredEntry} (found : after.lookup? address = some entry) :
    before.lookup? address = some entry ∨
      change.record? text = .ok (some entry.value) ∧ entry.key = change.key ∧
        address = before.address change.table change.key := by
  obtain ⟨record, between, made, stored, displaced⟩ := writes
  have inBetween : between.lookup? address = some entry := by
    split at displaced
    · obtain ⟨present, deleted⟩ := displaced
      rw [Transaction.lookup?_delete deleted] at found
      split at found
      · contradiction
      · exact found
    · rwa [displaced] at found
  cases record with
  | none =>
      rw [stored] at inBetween
      exact .inl inBetween
  | some bytes =>
      rw [Transaction.lookup?_put stored] at inBetween
      split at inBetween
      · rename_i same
        cases inBetween
        exact .inr ⟨made, rfl, same.symm⟩
      · exact .inl inBetween

theorem Applied.raises (applied : change.Applied payloads ignored before after (some vector)) :
    change.Raises ignored before vector := by
  cases applied with
  | written raises => exact raises

theorem Applied.base {result : Option ChangeVector}
    (applied : change.Applied payloads ignored before after result) : after.base = before.base := by
  cases applied with
  | known => rfl
  | written _ provides writes => rw [writes.base, provides.base]

/-- A change leaves alone what it neither records nor displaces, blobs apart. -/
theorem Applied.lookup_of_ne {result : Option ChangeVector}
    (applied : change.Applied payloads ignored before after result) {address : Table × String}
    (apart : ∀ table ∈ tablesOf change.home, before.address table change.key ≠ address)
    (noBlob : address.1 ≠ .attachmentBlobs) : after.lookup? address = before.lookup? address := by
  cases applied with
  | known => rfl
  | written _ provides writes =>
      rw [writes.lookup_of_ne fun table member => ?_, provides.lookup_of_ne noBlob]
      rw [Transaction.address, provides.base]
      exact apart table member

theorem decode_record? {bytes : Bytes} (made : change.record? text = .ok (some bytes)) :
    ∃ record, change.table.decode bytes = .ok record ∧ change.table.vectorOf record = text := by
  obtain ⟨header, body⟩ := change
  cases body with
  | attachmentTombstone => cases made
  | _ =>
      simp only [record?, Except.map_eq_ok_iff, Option.some.injEq] at made
      obtain ⟨octets, stored, rfl⟩ := made
      exact ⟨_, Stored.decode_octets stored, rfl⟩

theorem exists_of_record? (kept : change.kind ≠ .attachmentTombstone) {record : Option Bytes}
    (made : change.record? text = .ok record) : ∃ bytes, record = some bytes := by
  obtain ⟨header, body⟩ := change
  cases body with
  | attachmentTombstone => exact absurd rfl kept
  | _ =>
      simp only [record?, Except.map_eq_ok_iff] at made
      obtain ⟨octets, -, rfl⟩ := made
      exact ⟨octets, rfl⟩

theorem displaced_ne_table {table : Table} (displaced : change.displaced? = some table)
    (kept : change.kind ≠ .attachmentTombstone) : table ≠ change.table := by
  obtain ⟨header, body⟩ := change
  cases body with
  | attachmentTombstone => exact absurd rfl kept
  | _ => cases displaced <;> simp [Change.table]

/-- The record of a change stands with a vector, and nothing is left of what it displaces. -/
structure Stands (change : Change) (text : String) (work : Transaction) : Prop where
  stored : ∃ bytes, change.record? text = .ok (some bytes) ∧
    work.get change.table change.key = .ok (some bytes)
  alone : ∀ table, change.displaced? = some table → work.get table change.key = .ok none

theorem Writes.stands (writes : change.Writes text before after)
    (kept : change.kind ≠ .attachmentTombstone) : change.Stands text after := by
  obtain ⟨record, between, made, stored, displaced⟩ := writes
  obtain ⟨bytes, rfl⟩ := exists_of_record? kept made
  have read := Transaction.get_put stored
  split at displaced
  · rename_i table displaces
    obtain ⟨present, deleted⟩ := displaced
    have apart := displaced_ne_table displaces kept
    refine ⟨⟨bytes, made, ?_⟩, fun other same => ?_⟩
    · rw [Transaction.get_delete_of_ne deleted (Transaction.address_ne apart), read]
    · rw [displaces] at same
      cases same
      exact Transaction.get_delete deleted
  · rename_i alone
    rw [displaced]
    exact ⟨⟨bytes, made, read⟩, fun other same => by rw [alone] at same; cases same⟩

/-- After a change was written its record is in its table, with the vector, and nothing is left of
what it displaces. -/
theorem Writes.stored (writes : change.Writes text before after)
    (kept : change.kind ≠ .attachmentTombstone) :
    (∃ bytes, after.get change.table change.key = .ok (some bytes) ∧
      ∃ record, change.table.decode bytes = .ok record ∧ change.table.vectorOf record = text) ∧
    ∀ table, change.displaced? = some table → after.get table change.key = .ok none := by
  obtain ⟨⟨bytes, made, read⟩, alone⟩ := writes.stands kept
  exact ⟨⟨bytes, read, decode_record? made⟩, alone⟩

end Change

end DocumentReplication
