import DocumentReplication.Proofs.Commit.Dropping
import DocumentReplication.Proofs.Commit.Readability

/-!
The check before a vector is persisted. A slice starts from the persisted vector as far as that is not
ignored, and never falls behind it. Where something is ignored of it, the check is off, and nothing
that follows turns it on again: no slice fails for what would be lost.
-/

namespace DocumentReplication

open Work Workspace

variable {context : Context} {workspace next : Workspace} {previous : ChangeVector}

namespace Slice

theorem exists_startFrom (legible : previous.Legible) (workspace : Workspace)
    (canonical : workspace.context.Canonical) :
    ∃ started, attempt (startFrom previous) workspace = .ok ((), started) ∧
      (0 < previous.countIn workspace.context.ignored →
        started.context.skipsValidation = true) := by
  obtain ⟨current, accumulated⟩ := canonical.exists_accumulated
  have flagged : workspace.context.skipValidation.accumulated = .ok current := accumulated
  have part := legible.without workspace.context.ignored
  unfold startFrom
  split
  · simp only [attempt_bind, attempt_get, Except.ok_bind]
    split
    · simp only [attempt_bind, attempt_changeContext, attempt_onContext, Except.ok_bind,
        Context.attempt_mergeVector part, flagged, Except.map_ok]
      exact ⟨_, rfl, fun _ => rfl⟩
    · rename_i nothing
      simp only [attempt_onContext, Context.attempt_mergeVector part, accumulated, Except.map_ok]
      exact ⟨_, rfl, fun some => absurd some nothing⟩
  · rename_i nothing
    obtain rfl : previous = .empty := ChangeVector.isEmpty_iff.mp (by simpa using nothing)
    exact ⟨workspace, rfl, nofun⟩

theorem exists_nextVector (canonical : context.Canonical)
    (safe : context.skipsValidation = true ∨
      ∃ current, context.accumulated = .ok current ∧ current.covers previous = true) :
    ∃ text, nextVector context previous = .ok text := by
  cases kept : context.vectorText with
  | none => exact ⟨none, nextVector_eq_none_iff.mpr kept⟩
  | some text =>
      obtain ⟨vector, rfl, legible, -⟩ := canonical text kept
      have parsed := ChangeVector.parse_text legible
      obtain skips | ⟨current, accumulated, covers⟩ := safe
      · simp only [nextVector, kept, parsed, Except.ok_bind, skips]
        exact ⟨_, rfl⟩
      · simp only [Context.accumulated, kept] at accumulated
        exact ⟨_, nextVector_of_covers kept accumulated covers⟩

/-- What a slice comes to is never refused for entries that it would lose. -/
theorem exists_persisted {slice : Slice} {started applied : Workspace} {outcome : SliceOutcome}
    {holds : VectorEntry → Prop} {ignored : List String}
    (flag : 0 < previous.countIn ignored → started.context.skipsValidation = true)
    (apply : attempt (applyChanges slice.payloads slice.changes ⟨0, 0⟩) started =
      .ok (outcome, applied))
    (ahead : applied.Ahead holds ignored (previous.without ignored)) :
    ∃ text, nextVector (applied.context.recordEtag slice.source slice.lastEtag) previous =
      .ok text := by
  refine exists_nextVector ahead.canonical ?_
  obtain ⟨current, accumulated, covers, -⟩ := ahead.current
  rcases Nat.eq_zero_or_pos (previous.countIn ignored) with nothing | some
  · rw [ChangeVector.without_of_countIn nothing] at covers
    exact .inr ⟨current, accumulated, covers⟩
  · exact .inl ((applyChanges_skips_iff apply).mpr (.inl (flag some)))

end Slice

end DocumentReplication
