import DocumentReplication.Proofs.ChangeVector.Entries
import DocumentReplication.Proofs.Commit.Execution
import Mathlib.Data.List.Nodup

/-!
What a context gathers, call by call. Vectors are merged before transactional entries are taken out, so
a transactional entry that is ahead of what is known of its instance takes that out as well; all else
that was known, or that comes in without the tag, stays known.
-/

namespace DocumentReplication

open Work

/-- What work leaves, whether it succeeds or fails. -/
def Work.left {σ α : Type} (work : Work σ α) (state : σ) : σ :=
  (work state).2

theorem Work.left_of_attempt {σ α : Type} {work : Work σ α} {state next : σ} {value : α}
    (done : attempt work state = .ok (value, next)) : left work state = next := by
  unfold attempt at done
  split at done
  · rename_i ran
    cases done
    exact congrArg Prod.snd ran
  · contradiction

namespace VectorEntry

theorem le_advance (entry seen : VectorEntry) : entry.etag ≤ (entry.advance seen).etag := by
  unfold advance
  split
  · exact Int64.le_of_lt (by assumption)
  · exact Int64.le_refl _

theorem seen_le_advance (entry seen : VectorEntry) : seen.etag ≤ (entry.advance seen).etag := by
  unfold advance
  split
  · exact Int64.le_refl _
  · exact Int64.not_lt.mp (by assumption)

end VectorEntry

namespace ChangeVector

variable {vector incoming : ChangeVector} {entries : List VectorEntry} {entry seen : VectorEntry}
  {ignored : List String} {name : String} {etag : Int64}

/-- Whether a vector has at least this etag of an instance. -/
def Reaches (vector : ChangeVector) (name : String) (etag : Int64) : Prop :=
  ∃ known, vector.etagFor name = some known ∧ etag ≤ known

/-- Whether a transactional entry of a vector is ahead of this etag of its instance. -/
def Overtakes (vector : ChangeVector) (name : String) (etag : Int64) : Prop :=
  ∃ entry ∈ vector.entries, entry.instanceId = name ∧ entry.isTransactional = true ∧
    etag < entry.etag

theorem reaches_iff : vector.Reaches name etag ↔
    ∃ entry ∈ vector.entries, entry.instanceId = name ∧ etag ≤ entry.etag := by
  constructor
  · intro reaches
    obtain ⟨known, found, below⟩ := reaches
    obtain ⟨entry, member, named, rfl⟩ := etagFor_eq_some_iff.mp found
    exact ⟨entry, member, named, below⟩
  · intro listed
    obtain ⟨entry, member, named, below⟩ := listed
    exact ⟨entry.etag, etagFor_eq_some_iff.mpr ⟨entry, member, named, rfl⟩, below⟩

theorem mem_filtered_iff :
    entry ∈ (vector.withoutTransactional.without ignored).entries ↔
      entry ∈ vector.entries ∧ entry.isTransactional = false ∧ entry.instanceId ∉ ignored := by
  simp only [without, withoutTransactional, filter, List.mem_filter, Bool.not_eq_true',
    List.contains_eq_mem, decide_eq_false_iff_not, and_assoc]

theorem eq_of_instanceId (first : entry ∈ vector.entries) (second : seen ∈ vector.entries)
    (same : entry.instanceId = seen.instanceId) : entry = seen :=
  List.inj_on_of_nodup_map vector.distinct first second same

theorem advanceBy_mem_merge (member : entry ∈ vector.entries) (incoming : ChangeVector) :
    advanceBy incoming.entries entry ∈ (vector.merge incoming).entries := by
  rw [entries_merge]
  exact List.mem_append_left _ (List.mem_map_of_mem member)

/-- An incoming entry without the tag of transactions stays known, unless its instance is ignored. -/
theorem reaches_of_incoming (plain : ∀ entry ∈ vector.entries, entry.isTransactional = false)
    (member : seen ∈ incoming.entries) (seenPlain : seen.isTransactional = false)
    (outside : seen.instanceId ∉ ignored) :
    ((vector.merge incoming).withoutTransactional.without ignored).Reaches seen.instanceId
      seen.etag := by
  rw [reaches_iff]
  cases known : vector.names seen.instanceId with
  | true =>
      obtain ⟨entry, found, same⟩ := List.any_eq_true.mp known
      have named : seen.instanceId = entry.instanceId := (beq_iff_eq.mp same).symm
      have advanced := advanceBy_mem_merge found incoming
      rw [advanceBy_of_mem incoming.distinct member named] at advanced
      have renamed : (entry.advance seen).instanceId = seen.instanceId := by
        rw [VectorEntry.advance_instanceId, named]
      refine ⟨entry.advance seen, mem_filtered_iff.mpr ⟨advanced, ?_, ?_⟩, renamed,
        VectorEntry.seen_le_advance entry seen⟩
      · exact VectorEntry.isTransactional_advance (plain entry found) seenPlain
      · rwa [renamed]
  | false =>
      refine ⟨seen, mem_filtered_iff.mpr ⟨?_, seenPlain, outside⟩, rfl, Int64.le_refl _⟩
      rw [entries_merge]
      exact List.mem_append_right _ (List.mem_filter.mpr ⟨member, by rw [known, Bool.not_false]⟩)

/-- What is known of an instance stays known exactly where no transactional entry overtakes it. -/
theorem reaches_iff_not_overtakes (plain : ∀ entry ∈ vector.entries, entry.isTransactional = false)
    (outside : name ∉ ignored) (found : vector.etagFor name = some etag) :
    ((vector.merge incoming).withoutTransactional.without ignored).Reaches name etag ↔
      ¬ incoming.Overtakes name etag := by
  obtain ⟨entry, member, rfl, rfl⟩ := etagFor_eq_some_iff.mp found
  have advanced := advanceBy_mem_merge member incoming
  rw [reaches_iff]
  constructor
  · intro reached overtaken
    obtain ⟨left, there, named, -⟩ := reached
    obtain ⟨seen, listed, same, transactional, ahead⟩ := overtaken
    -- The entry that was overtaken is the only one of its instance, and it has the tag now.
    rw [advanceBy_of_mem incoming.distinct listed same] at advanced
    obtain ⟨merged, leftPlain, -⟩ := mem_filtered_iff.mp there
    have only : left = entry.advance seen := eq_of_instanceId merged advanced
      (named.trans (VectorEntry.advance_instanceId entry seen).symm)
    rw [only, VectorEntry.advance, if_pos ahead] at leftPlain
    exact absurd (leftPlain.symm.trans transactional) Bool.false_ne_true
  · intro slow
    by_cases listed : ∃ seen ∈ incoming.entries, seen.instanceId = entry.instanceId
    · obtain ⟨seen, listed, same⟩ := listed
      rw [advanceBy_of_mem incoming.distinct listed same] at advanced
      refine ⟨entry.advance seen, mem_filtered_iff.mpr ⟨advanced, ?_, ?_⟩,
        VectorEntry.advance_instanceId entry seen, VectorEntry.le_advance entry seen⟩
      · rw [VectorEntry.advance]
        split
        · rename_i ahead
          exact (Bool.not_eq_true _).mp fun transactional =>
            slow ⟨seen, listed, same, transactional, ahead⟩
        · exact plain entry member
      · rwa [VectorEntry.advance_instanceId]
    · rw [advanceBy_of_absent fun seen member same => listed ⟨seen, member, same⟩] at advanced
      exact ⟨entry, mem_filtered_iff.mpr ⟨advanced, plain entry member, outside⟩, rfl,
        Int64.le_refl _⟩

end ChangeVector

namespace Context

variable {context after : Context} {vector : ChangeVector} {text : String}

/-- Contexts that calls lead to from a fresh one, whether they succeed or fail. -/
inductive Reached : Context → Prop
  | fresh : Reached .fresh
  | ignore {context : Context} (name : String) : Reached context → Reached (context.ignore name)
  | set {context : Context} (text : String) : Reached context →
      Reached (left (setVector text) context)
  | merge {context : Context} (vector : ChangeVector) : Reached context →
      Reached (left (mergeVector vector) context)

/-- No transactional entry was accumulated. -/
def Plain (context : Context) : Prop :=
  ∀ vector, context.accumulated = .ok vector →
    ∀ entry ∈ vector.entries, entry.isTransactional = false

theorem left_setVector (text : String) (context : Context) :
    left (setVector text) context =
      match keptText context.ignored text with
      | .ok kept => { context.touch with vectorText := some kept }
      | .error _ => context.touch := by
  change left (match keptText context.ignored text with
    | .ok kept => modify fun context => { context with vectorText := some kept }
    | .error fault => throw (.vector fault)) context.touch = _
  cases keptText context.ignored text <;> rfl

theorem left_mergeVector (vector : ChangeVector) (context : Context) :
    left (mergeVector vector) context =
      match context.accumulated with
      | .ok current => left (setVector (current.merge vector).text) context
      | .error _ => context := by
  change left (ofExcept context.accumulated >>= fun current =>
    setVector (current.merge vector).text) context = _
  cases context.accumulated <;> rfl

theorem plain_of_keptText {ignored : List String} {kept : String}
    (done : keptText ignored text = .ok kept) (found : ChangeVector.ofText kept = .ok vector) :
    ∀ entry ∈ vector.entries, entry.isTransactional = false := by
  cases whole : ChangeVector.ofText text with
  | ok all =>
      obtain rfl := Except.ok.inj (found.symm.trans (ofText_keptText whole done))
      exact fun entry member => (ChangeVector.mem_filtered_iff.mp member).2.1
  | error fault =>
      rw [eq_of_keptText whole done, whole] at found
      contradiction

theorem Plain.set (plain : context.Plain) (text : String) :
    (left (setVector text) context).Plain := by
  intro vector found
  rw [left_setVector] at found
  split at found
  · rename_i kept done
    exact plain_of_keptText done (ChangeVector.parse_eq_ok_iff.mp found)
  · exact plain vector found

/-- Whatever text a context was given, it did not accumulate transactional entries. -/
theorem Reached.plain (reached : context.Reached) : context.Plain := by
  induction reached with
  | fresh =>
      intro vector found
      cases found
      exact fun entry member => absurd member List.not_mem_nil
  | ignore name _ ih => exact ih
  | set text _ ih => exact ih.set text
  | @merge context vector _ ih =>
      rw [left_mergeVector]
      split
      · exact ih.set _
      · exact ih

/-- A merge that succeeds leaves a vector without transactional entries and ignored instances. Of any
other instance it has at least what came in without the tag of transactions, and at least what was
accumulated before, unless a transactional entry that came in overtook it: then it has nothing of it. -/
theorem Reached.merge_gathers (reached : context.Reached)
    (parsed : ChangeVector.parse text = .ok vector)
    (done : attempt (mergeVector vector) context = .ok ((), after)) :
    ∃ current gathered, context.accumulated = .ok current ∧ after.accumulated = .ok gathered ∧
      after.ignored = context.ignored ∧ gathered.Storable context.ignored ∧
      ∀ name ∉ context.ignored,
        (∀ etag, current.etagFor name = some etag →
          (gathered.Reaches name etag ↔ ¬ vector.Overtakes name etag)) ∧
        ∀ entry ∈ vector.entries, entry.instanceId = name → entry.isTransactional = false →
          gathered.Reaches name entry.etag := by
  obtain ⟨current, entered⟩ := entered_of_mergeVector (ChangeVector.legible_of_parse parsed) done
  have plain := reached.plain current entered.found
  refine ⟨current, _, entered.found, entered.accumulated, entered.ignored,
    ChangeVector.storable_filtered _ _, fun name outside => ⟨fun etag known => ?_, ?_⟩⟩
  · exact ChangeVector.reaches_iff_not_overtakes plain outside known
  · intro entry member named entryPlain
    subst named
    exact ChangeVector.reaches_of_incoming plain member entryPlain outside

/-- Instances that are ahead, behind, transactional, new and ignored. -/
def arrivals : String := "RV:6-A, TRXN:1-B, TRXN:9-C, B:2-D, RV:3-X"

theorem merge_gathers_arrivals :
    ∃ context vector after, Reached context ∧ ChangeVector.parse arrivals = .ok vector ∧
      attempt (mergeVector vector) context = .ok ((), after) ∧
      after.vectorText = some "RV:6-A, RV:2-B, B:2-D" ∧
      ∃ current gathered, context.accumulated = .ok current ∧ after.accumulated = .ok gathered ∧
        after.ignored = context.ignored ∧ gathered.Storable context.ignored ∧
        ∀ name ∉ context.ignored,
          (∀ etag, current.etagFor name = some etag →
            (gathered.Reaches name etag ↔ ¬ vector.Overtakes name etag)) ∧
          ∀ entry ∈ vector.entries, entry.instanceId = name → entry.isTransactional = false →
            gathered.Reaches name entry.etag := by
  have gathered : (do
      let vector ← ChangeVector.parse arrivals
      let ((), context) ← attempt (setVector "RV:4-A, TRXN:7-T, RV:2-B, RV:5-C")
        (Context.fresh.ignore "X")
      let ((), after) ← attempt (mergeVector vector) context
      return after.vectorText) = Except.ok (some "RV:6-A, RV:2-B, B:2-D") := by decide +kernel
  obtain ⟨vector, parsed, gathered⟩ := Except.bind_eq_ok_iff.mp gathered
  obtain ⟨⟨⟨⟩, context⟩, given, gathered⟩ := Except.bind_eq_ok_iff.mp gathered
  obtain ⟨⟨⟨⟩, after⟩, done, gathered⟩ := Except.bind_eq_ok_iff.mp gathered
  have reached : Reached context := left_of_attempt given ▸ (Reached.fresh.ignore "X").set _
  exact ⟨context, vector, after, reached, parsed, done, Except.ok.inj gathered,
    reached.merge_gathers parsed done⟩

/-- What is accumulated of an instance can be lost to a transactional entry. -/
theorem merge_loses_overtaken :
    ¬ ∀ (context after : Context) (text : String) (vector current gathered : ChangeVector)
      (name : String) (etag : Int64), context.Reached → ChangeVector.parse text = .ok vector →
      attempt (mergeVector vector) context = .ok ((), after) →
      context.accumulated = .ok current → after.accumulated = .ok gathered →
      name ∉ context.ignored → current.etagFor name = some etag → gathered.Reaches name etag := by
  intro kept
  have lost : (do
      let first ← ChangeVector.parse "A:5-dbA"
      let second ← ChangeVector.parse "TRXN:9-dbA"
      let ((), context) ← attempt (mergeVector first) .fresh
      let ((), after) ← attempt (mergeVector second) context
      let current ← context.accumulated
      let gathered ← after.accumulated
      return (context.ignored, current.etagFor "dbA", gathered.etagFor "dbA")) =
        Except.ok ([], some 5, none) := by decide +kernel
  obtain ⟨first, -, lost⟩ := Except.bind_eq_ok_iff.mp lost
  obtain ⟨second, parsed, lost⟩ := Except.bind_eq_ok_iff.mp lost
  obtain ⟨⟨⟨⟩, context⟩, begun, lost⟩ := Except.bind_eq_ok_iff.mp lost
  obtain ⟨⟨⟨⟩, after⟩, done, lost⟩ := Except.bind_eq_ok_iff.mp lost
  obtain ⟨current, before, lost⟩ := Except.bind_eq_ok_iff.mp lost
  obtain ⟨gathered, behind, lost⟩ := Except.bind_eq_ok_iff.mp lost
  simp only [Except.pure_eq_ok, Except.ok.injEq, Prod.mk.injEq] at lost
  obtain ⟨none, known, gone⟩ := lost
  have reached : Reached context := left_of_attempt begun ▸ Reached.fresh.merge first
  obtain ⟨etag, found, -⟩ := kept context after _ second current gathered "dbA" 5 reached parsed done
    before behind (none ▸ List.not_mem_nil) known
  rw [gone] at found
  contradiction

end Context

end DocumentReplication
