import DocumentReplication.Proofs.Commit.Etags
import DocumentReplication.Proofs.Commit.Execution

/-!
Settled states. A successful execution leaves a state whose vector has the text that a context would
give it, so that starting from this state once more brings back the same text. The context it leaves
carries the state: it knows the same vector, and no etag that the state does not know.
-/

namespace DocumentReplication

open Work

variable {outcome : SliceOutcome} {workspace before after : Workspace}

/-- The vector of a state has the text a context would give it, or there is none. -/
structure ReplicationState.Settled (ignored : List String) (state : ReplicationState)
    (vector : ChangeVector) : Prop where
  parsed : ChangeVector.parse state.changeVector = .ok vector
  storable : vector.Storable ignored
  text : vector = .empty ∨ state.changeVector = vector.text

/-- A context with nothing in it that a state does not know. -/
structure Context.Carries (context : Context) (state : ReplicationState) (vector : ChangeVector) :
    Prop where
  settled : state.Settled context.ignored vector
  text : context.vectorText = none ∧ vector = .empty ∨
    context.vectorText = some vector.text ∧ state.changeVector = vector.text
  etags : Behind context.etags state.lastEtagFrom

namespace Context.Carries

variable {context : Context} {state : ReplicationState} {vector : ChangeVector}

theorem legible (carries : context.Carries state vector) : vector.Legible :=
  ChangeVector.legible_of_parse carries.settled.parsed

theorem accumulated (carries : context.Carries state vector) :
    context.accumulated = .ok vector := by
  unfold Context.accumulated
  rcases carries.text with ⟨nothing, rfl⟩ | ⟨kept, -⟩
  · rw [nothing]
  · rw [kept]
    exact ChangeVector.parse_text carries.legible

theorem canonical (carries : context.Carries state vector) : context.Canonical := by
  intro text kept
  rcases carries.text with ⟨nothing, -⟩ | ⟨same, -⟩
  · rw [nothing] at kept
    contradiction
  · rw [same] at kept
    cases kept
    exact ⟨vector, rfl, carries.legible, carries.settled.storable⟩

end Context.Carries

namespace Slice

namespace Executed

variable {slice : Slice} {stored : Option ReplicationState} {previous : ChangeVector}
  {started applied : Workspace} {text : Option String} {record : Bytes}

theorem canonical (executed : slice.Executed before after outcome stored previous started applied
    text record) (fresh : before.context.Canonical) : applied.context.Canonical := by
  refine applyChanges_canonical executed.apply ?_
  obtain ⟨-, ⟨-, same⟩ | ⟨current, entered⟩⟩ := startFrom_cases executed.legible executed.start
  · rw [same]
    exact fresh
  · exact entered.canonical

/-- A successful execution leaves a state that its context carries. -/
theorem carries (executed : slice.Executed before after outcome stored previous started applied
    text record) (fresh : before.context.Canonical) :
    ∃ vector, after.context.Carries
      (slice.nextState applied.context (stored.getD .empty) text) vector := by
  have persisted := executed.persisted
  have etags : Behind after.context.etags
      (slice.nextState applied.context (stored.getD .empty) text).lastEtagFrom := by
    rw [executed.context]
    exact (behind_advance _ _).2
  have ignored : after.context.ignored = applied.context.ignored := by
    rw [executed.context]
    rfl
  have kept : after.context.vectorText = applied.context.vectorText := by
    rw [executed.context]
    rfl
  cases text with
  | some written =>
      have found : applied.context.vectorText = some written := nextVector_eq_some persisted
      obtain ⟨vector, rfl, legible, storable⟩ := executed.canonical fresh written found
      rw [← ignored] at storable
      exact ⟨vector, ⟨ChangeVector.parse_text legible, storable, .inr rfl⟩,
        .inr ⟨kept.trans found, rfl⟩, etags⟩
  | none =>
      -- No change was written, so the context is as it was when it started from the state.
      have nothing : applied.context.vectorText = none := nextVector_eq_none_iff.mp persisted
      have before : started.context.vectorText = none := by
        by_cases absent : started.context.vectorText = none
        · exact absent
        · exact absurd nothing (applyChanges_vectorText executed.apply absent)
      obtain ⟨-, ⟨empty, -⟩ | ⟨current, entered⟩⟩ := startFrom_cases executed.legible executed.start
      · have parsed := executed.parsed
        rw [empty] at parsed
        exact ⟨.empty, ⟨parsed, ChangeVector.storable_empty _, .inl rfl⟩,
          .inl ⟨kept.trans nothing, rfl⟩, etags⟩
      · rw [entered.text] at before
        contradiction

end Executed

/-- Starting from a settled state, in a context that knows nothing or already knows its vector,
brings its text into the context, unless the state knows nothing. -/
theorem startFrom_settled {state : ReplicationState} {vector current : ChangeVector}
    (settled : state.Settled workspace.context.ignored vector)
    (found : workspace.context.accumulated = .ok current)
    (known : current = .empty ∨ current = vector) :
    ∃ context, attempt (startFrom vector) workspace =
        .ok ((), { workspace with context := context }) ∧
      context.ignored = workspace.context.ignored ∧ context.etags = workspace.context.etags ∧
      (vector = .empty ∧ context = workspace.context ∨
        vector ≠ .empty ∧ context.vectorText = some state.changeVector) := by
  have legible := ChangeVector.legible_of_parse settled.parsed
  by_cases empty : vector = .empty
  · subst empty
    exact ⟨workspace.context, rfl, rfl, rfl, .inl ⟨rfl, rfl⟩⟩
  · have same : state.changeVector = vector.text := settled.text.resolve_left empty
    have something : vector.isEmpty = false := by
      rw [← Bool.not_eq_true, ChangeVector.isEmpty_iff]
      exact empty
    have merged : current.merge vector = vector := by
      rcases known with rfl | rfl
      · exact ChangeVector.empty_merge vector
      · exact ChangeVector.merge_of_covers (ChangeVector.covers_refl _)
    have enters : workspace.context.enter current vector = vector := by
      rw [Context.enter, merged, settled.storable.withoutTransactional, settled.storable.without]
    refine ⟨{ workspace.context.touch with vectorText := some vector.text }, ?_, rfl, rfl,
      .inr ⟨empty, by rw [same]⟩⟩
    simp only [startFrom, something, Bool.not_false, if_true, attempt_bind, attempt_get,
      Except.ok_bind, settled.storable.countIn, Nat.lt_irrefl, if_false, settled.storable.without,
      Workspace.attempt_onContext, Context.attempt_mergeVector legible, found, enters,
      Except.map_ok]

end Slice

end DocumentReplication
