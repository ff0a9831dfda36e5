import DocumentReplication.Proofs.Commit.Knowledge
import DocumentReplication.Proofs.Commit.Stripped

/-!
Agreement of executions. A slice meets nothing but the view of its transaction and a part of its
context, so in two workspaces that agree on these it comes to the same outcome, and they agree
afterwards. Which part of the contexts has to agree is left open: everything, or only what a shared
context has in common with a fresh one.
-/

namespace DocumentReplication

open Work

variable {α β : Type} {related : Context → Context → Prop} {first last : Workspace}
  {payloads : Dictionary String Bytes} {change : Change} {vector : ChangeVector}

/-- Relations of contexts that applying a change keeps. -/
structure Context.Tolerant (related : Context → Context → Prop) : Prop where
  ignored {first last : Context} : related first last → first.ignored = last.ignored
  skip {first last : Context} : related first last →
    related first.skipValidation last.skipValidation
  scratch {first last : Context} (bytes : Bytes) : related first last →
    related (first.writeScratch bytes) (last.writeScratch bytes)

namespace Workspace

structure Alike (related : Context → Context → Prop) (first last : Workspace) : Prop where
  context : related first.context last.context
  view : first.transaction.SameView last.transaction

/-- Outcomes that agree, and leave workspaces that agree. -/
abbrev Agrees (related : Context → Context → Prop) :
    Except Fault (α × Workspace) → Except Fault (α × Workspace) → Prop :=
  Except.Agree fun result twin => result.1 = twin.1 ∧ Alike related result.2 twin.2

theorem agrees_pure (value : α) (alike : Alike related first last) :
    Agrees related (attempt (pure value : Command α) first) (attempt (pure value) last) :=
  .ok ⟨rfl, alike⟩

theorem agrees_ofExcept (outcome : Except Fault α) (alike : Alike related first last) :
    Agrees related (attempt (ofExcept outcome : Command α) first)
      (attempt (ofExcept outcome) last) := by
  rw [attempt_ofExcept, attempt_ofExcept]
  exact (Except.Agree.of_eq rfl).map fun _ _ same => ⟨same, alike⟩

theorem agrees_bind {command twin : Command α} {next twinNext : α → Command β}
    (agrees : Agrees related (attempt command first) (attempt twin last))
    (rest : ∀ value firstLeft lastLeft, attempt command first = .ok (value, firstLeft) →
      attempt twin last = .ok (value, lastLeft) → Alike related firstLeft lastLeft →
        Agrees related (attempt (next value) firstLeft) (attempt (twinNext value) lastLeft)) :
    Agrees related (attempt (command >>= next) first) (attempt (twin >>= twinNext) last) := by
  rw [attempt_bind, attempt_bind]
  refine agrees.bind fun ⟨value, firstLeft⟩ ⟨other, lastLeft⟩ done twinDone ⟨same, alike⟩ => ?_
  cases same
  exact rest value firstLeft lastLeft done twinDone alike

theorem agrees_get {next twinNext : Workspace → Command α}
    (rest : Agrees related (attempt (next first) first) (attempt (twinNext last) last)) :
    Agrees related (attempt (get >>= next) first) (attempt (get >>= twinNext) last) := by
  rw [attempt_bind, attempt_bind]
  exact rest

theorem agrees_changeContext {change : Context → Context} (alike : Alike related first last)
    (kept : related (change first.context) (change last.context)) :
    Agrees related (attempt (changeContext change) first) (attempt (changeContext change) last) :=
  .ok ⟨rfl, kept, alike.view⟩

theorem agrees_onContext {work twin : Work Context α} (alike : Alike related first last)
    (agree : Except.Agree (fun result other => result.1 = other.1 ∧ related result.2 other.2)
      (attempt work first.context) (attempt twin last.context)) :
    Agrees related (attempt (onContext work) first) (attempt (onContext twin) last) := by
  rw [attempt_onContext, attempt_onContext]
  exact agree.map fun _ _ ⟨same, kept⟩ => ⟨same, kept, alike.view⟩

theorem transaction_onContext {work : Work Context α} {value : α}
    (done : attempt (onContext work) first = .ok (value, last)) :
    last.transaction = first.transaction := by
  rw [attempt_onContext, Except.map_eq_ok_iff] at done
  obtain ⟨_, -, same⟩ := done
  cases same
  rfl

theorem agrees_fetch (table : Table) (key : String) (alike : Alike related first last) :
    Agrees related (attempt (fetch table key) first) (attempt (fetch table key) last) := by
  rw [attempt_fetch, attempt_fetch, alike.view.get]
  exact (Except.Agree.of_eq rfl).map fun _ _ same => ⟨same, alike⟩

theorem agrees_put (table : Table) (key : String) (value : Bytes)
    (alike : Alike related first last) :
    Agrees related (attempt (put table key value) first) (attempt (put table key value) last) := by
  rw [attempt_put, attempt_put]
  exact (alike.view.put table key value).map fun _ _ view => ⟨rfl, alike.context, view⟩

theorem agrees_delete (table : Table) (key : String) (alike : Alike related first last) :
    Agrees related (attempt (delete table key) first) (attempt (delete table key) last) := by
  rw [attempt_delete, attempt_delete]
  exact (alike.view.delete table key).map fun _ _ deleted => ⟨rfl, alike.context, deleted.2⟩

end Workspace

open Workspace

theorem Transaction.SameView.storedVector {work twin : Transaction} (same : work.SameView twin)
    (change : Change) : change.storedVector work = change.storedVector twin := by
  rw [Change.storedVector_eq, Change.storedVector_eq]
  exact Transaction.homeVector_congr fun table _ => same.get table change.key

namespace Change

theorem agrees_provideContent (alike : Alike related first last) :
    Agrees related (attempt (change.provideContent payloads) first)
      (attempt (change.provideContent payloads) last) := by
  unfold provideContent
  split
  · split
    · exact agrees_put _ _ _ alike
    · refine agrees_bind (agrees_fetch _ _ alike) fun found _ _ _ _ alike => ?_
      split
      · exact .error _
      · exact agrees_pure () alike
  · exact agrees_pure () alike

theorem agrees_displace (alike : Alike related first last) :
    Agrees related
      (attempt (do if let some table := change.displaced? then
        Workspace.delete table change.key) first)
      (attempt (do if let some table := change.displaced? then
        Workspace.delete table change.key) last) := by
  split
  · exact agrees_delete _ _ alike
  · exact agrees_pure () alike

theorem agrees_write (tolerant : Context.Tolerant related) (alike : Alike related first last) :
    Agrees related (attempt (change.write vector) first) (attempt (change.write vector) last) := by
  unfold Change.write
  refine agrees_bind (agrees_ofExcept _ alike) fun record _ _ _ _ alike => ?_
  cases record with
  | none => exact agrees_displace alike
  | some bytes =>
      refine agrees_bind ?_ fun _ _ _ _ _ alike => agrees_displace alike
      refine agrees_bind (agrees_changeContext alike (tolerant.scratch bytes alike.context))
        fun _ _ _ _ _ alike => agrees_put _ _ _ alike

theorem agrees_settling (incoming : ChangeVector) (stored : Option String)
    (alike : Alike related first last) :
    Agrees related (attempt (settling ignored incoming stored) first)
      (attempt (settling ignored incoming stored) last) := by
  cases stored with
  | none => exact agrees_pure _ alike
  | some text =>
      exact agrees_bind (agrees_ofExcept _ alike) fun _ _ _ _ _ alike => agrees_pure _ alike

theorem agrees_resolve (tolerant : Context.Tolerant related) (alike : Alike related first last)
    (stored : Option String) :
    Agrees related (attempt (change.resolve stored) first)
      (attempt (change.resolve stored) last) := by
  rw [resolve_eq]
  refine agrees_get ?_
  rw [tolerant.ignored alike.context]
  refine agrees_bind (agrees_ofExcept _ alike) fun (incoming, dropped) _ _ _ _ alike => ?_
  cases dropped with
  | false => exact agrees_settling incoming stored alike
  | true =>
      exact agrees_bind (agrees_changeContext alike (tolerant.skip alike.context))
        fun _ _ _ _ _ alike => agrees_settling incoming stored alike

theorem agrees_applyRevision (tolerant : Context.Tolerant related)
    (alike : Alike related first last) :
    Agrees related (attempt change.applyRevision first) (attempt change.applyRevision last) := by
  unfold applyRevision
  refine agrees_bind (agrees_fetch _ _ alike) fun found _ _ _ _ alike => ?_
  split
  · exact agrees_pure _ alike
  · refine agrees_get ?_
    rw [tolerant.ignored alike.context]
    refine agrees_bind (agrees_ofExcept _ alike) fun (incoming, dropped) _ _ _ _ alike => ?_
    exact agrees_bind (agrees_write tolerant alike) fun _ _ _ _ _ alike => agrees_pure _ alike

/-- Workspaces that agree go on to agree when a change is applied in both. -/
theorem agrees_apply (tolerant : Context.Tolerant related) (alike : Alike related first last) :
    Agrees related (attempt (change.apply payloads) first)
      (attempt (change.apply payloads) last) := by
  unfold Change.apply
  split
  · exact agrees_applyRevision tolerant alike
  · refine agrees_get ?_
    rw [alike.view.storedVector]
    refine agrees_bind (agrees_ofExcept _ alike) fun stored _ _ _ _ alike => ?_
    refine agrees_bind (agrees_resolve tolerant alike stored) fun resolved _ _ _ _ alike => ?_
    cases resolved with
    | none => exact agrees_pure _ alike
    | some vector =>
        refine agrees_bind (agrees_provideContent alike) fun _ _ _ _ _ alike => ?_
        exact agrees_bind (agrees_write tolerant alike) fun _ _ _ _ _ alike => agrees_pure _ alike

end Change

/-- Whether contexts go on to be related when a vector that may be stored enters both. -/
def Context.Merges (related : Context → Context → Prop) : Prop :=
  ∀ first last vector, related first last → vector.Legible → vector.Storable first.ignored →
    Except.Agree (fun result other => result.1 = other.1 ∧ related result.2 other.2)
      (attempt (Context.mergeVector vector) first) (attempt (Context.mergeVector vector) last)

theorem Slice.agrees_applyChanges (payloads : Dictionary String Bytes)
    (tolerant : Context.Tolerant related) (merges : Context.Merges related)
    (changes : List Change) (outcome : SliceOutcome)
    (alike : Alike related first last) (stripped : first.transaction.Stripped) :
    Agrees related (attempt (applyChanges payloads changes outcome) first)
      (attempt (applyChanges payloads changes outcome) last) := by
  induction changes generalizing first last outcome with
  | nil => exact agrees_pure _ alike
  | cons change rest ih =>
      refine agrees_bind (Change.agrees_apply tolerant alike) fun written _ _ done _ alike => ?_
      obtain ⟨applied, progress⟩ := Change.attempt_apply done
      have strippedNext := stripped.applied applied
      cases written with
      | none => exact ih _ alike strippedNext
      | some vector =>
          have storable := stripped.vector_of_raises applied.raises
          rw [← progress.ignored] at storable
          refine agrees_bind (agrees_onContext alike (merges _ _ vector alike.context
            applied.raises.legible storable)) fun _ firstLeft _ merged _ alike => ?_
          have same := transaction_onContext merged
          exact ih _ alike (same ▸ strippedNext)

theorem Context.tolerant_eq : Tolerant Eq where
  ignored same := congrArg Context.ignored same
  skip same := congrArg Context.skipValidation same
  scratch bytes same := congrArg (Context.writeScratch bytes) same

theorem Context.agree_of_eq {work : Work Context α} {context twin : Context}
    (same : context = twin) :
    Except.Agree (fun result other => result.1 = other.1 ∧ result.2 = other.2)
      (attempt work context) (attempt work twin) := by
  subst same
  exact (Except.Agree.of_eq rfl).mono fun _ _ same => ⟨congrArg Prod.fst same,
    congrArg Prod.snd same⟩

theorem Slice.agrees_startFrom (previous : ChangeVector) (alike : Alike Eq first last) :
    Agrees Eq (attempt (startFrom previous) first) (attempt (startFrom previous) last) := by
  unfold startFrom
  split
  · refine agrees_get ?_
    rw [alike.context]
    dsimp only
    split
    · refine agrees_bind (agrees_changeContext alike (by rw [alike.context]))
        fun _ _ _ _ _ alike => ?_
      exact agrees_onContext alike (Context.agree_of_eq alike.context)
    · exact agrees_onContext alike (Context.agree_of_eq alike.context)
  · exact agrees_pure _ alike

/-- A slice comes to the same in equal contexts over transactions with the same view. -/
theorem Slice.agrees_execute (slice : Slice) (stripped : first.transaction.Stripped)
    (start : Alike Eq first last) :
    Agrees Eq (attempt slice.execute first) (attempt slice.execute last) := by
  unfold execute
  refine agrees_get ?_
  rw [start.view.readState]
  refine agrees_bind (agrees_ofExcept _ start) fun stored _ _ reading _ read => ?_
  obtain ⟨-, rfl⟩ := attempt_ofExcept_eq_ok reading
  refine agrees_bind (agrees_ofExcept _ read) fun previous _ _ parsing _ alike => ?_
  obtain ⟨parsed, rfl⟩ := attempt_ofExcept_eq_ok parsing
  refine agrees_bind (agrees_startFrom previous alike) fun _ _ _ started _ alike => ?_
  -- Starting leaves the transaction alone.
  have legible := ChangeVector.legible_of_parse parsed
  rw [← (startFrom_cases legible started).1] at stripped
  refine agrees_bind (agrees_applyChanges _ Context.tolerant_eq
    (fun _ _ vector same _ _ => Context.agree_of_eq same) _ _ alike stripped)
    fun outcome _ _ _ _ alike => ?_
  refine agrees_bind (agrees_changeContext alike (by rw [alike.context])) fun _ _ _ _ _ alike => ?_
  refine agrees_get ?_
  rw [alike.context]
  refine agrees_bind (agrees_ofExcept _ alike) fun vector _ _ _ _ alike => ?_
  refine agrees_bind (agrees_ofExcept _ alike) fun record _ _ _ _ alike => ?_
  exact agrees_bind (agrees_put _ _ _ alike) fun _ _ _ _ _ alike => agrees_pure _ alike

end DocumentReplication
