import DocumentReplication.Commit.Slice

/-!
What work comes to where only success counts. Failed work is given up together with the state it
leaves, so its outcome is a fault alone, and work in sequence is sequence of outcomes.
-/

namespace DocumentReplication

namespace Except

variable {ε α β : Type}

instance instDecidableEq [DecidableEq ε] [DecidableEq α] : DecidableEq (Except ε α)
  | .ok first, .ok second => decidable_of_iff (first = second) (by simp)
  | .error first, .error second => decidable_of_iff (first = second) (by simp)
  | .ok _, .error _ => isFalse nofun
  | .error _, .ok _ => isFalse nofun

@[simp] theorem ok_bind (value : α) (next : α → Except ε β) :
    (Except.ok value >>= next) = next value := rfl

@[simp] theorem error_bind (fault : ε) (next : α → Except ε β) :
    (Except.error fault >>= next) = .error fault := rfl

@[simp] theorem map_ok (change : α → β) (value : α) :
    (Except.ok value : Except ε α).map change = .ok (change value) := rfl

@[simp] theorem map_error (change : α → β) (fault : ε) :
    (Except.error fault : Except ε α).map change = .error fault := rfl

@[simp] theorem pure_eq_ok (value : α) : (pure value : Except ε α) = .ok value := rfl

theorem bind_eq_ok_iff {first : Except ε α} {next : α → Except ε β} {result : β} :
    first >>= next = .ok result ↔ ∃ value, first = .ok value ∧ next value = .ok result := by
  cases first <;> simp

theorem map_eq_ok_iff {outcome : Except ε α} {change : α → β} {result : β} :
    outcome.map change = .ok result ↔ ∃ value, outcome = .ok value ∧ change value = result := by
  cases outcome <;> simp

theorem map_eq_error_iff {outcome : Except ε α} {change : α → β} {fault : ε} :
    outcome.map change = .error fault ↔ outcome = .error fault := by
  cases outcome <;> simp

section

variable {γ : Type}

theorem map_map (outcome : Except ε α) (change : α → β) (next : β → γ) :
    (outcome.map change).map next = outcome.map fun value => next (change value) := by
  cases outcome <;> rfl

theorem bind_map (outcome : Except ε α) (change : α → β) (next : β → Except ε γ) :
    outcome.map change >>= next = outcome >>= fun value => next (change value) := by
  cases outcome <;> rfl

theorem map_bind (first : Except ε α) (next : α → Except ε β) (change : β → γ) :
    (first >>= next).map change = first >>= fun value => (next value).map change := by
  cases first <;> rfl

/-- What each step of a fold keeps is left when the fold succeeds. -/
theorem foldlM_invariant {σ : Type} {step : σ → α → Except ε σ} (holds : σ → Prop)
    {items : List α} {state last : σ} (done : items.foldlM step state = .ok last)
    (each : ∀ item ∈ items, ∀ state next, step state item = .ok next → holds state → holds next)
    (start : holds state) : holds last := by
  induction items generalizing state with
  | nil =>
      cases done
      exact start
  | cons item rest ih =>
      rw [List.foldlM_cons, bind_eq_ok_iff] at done
      obtain ⟨next, first, others⟩ := done
      exact ih others (fun later member => each later (List.mem_cons_of_mem _ member))
        (each item List.mem_cons_self state next first start)

end

/-- Outcomes that fail alike or succeed with related values. -/
inductive Agree (related : α → β → Prop) : Except ε α → Except ε β → Prop
  | ok {first : α} {last : β} : related first last → Agree related (.ok first) (.ok last)
  | error (fault : ε) : Agree related (.error fault) (.error fault)

namespace Agree

variable {γ δ : Type} {related : α → β → Prop} {wanted : γ → δ → Prop}

theorem of_eq {first last : Except ε α} (same : first = last) : Agree Eq first last := by
  subst same
  cases first with
  | ok value => exact .ok rfl
  | error fault => exact .error fault

theorem bind {first : Except ε α} {last : Except ε β} {firstNext : α → Except ε γ}
    {lastNext : β → Except ε δ} (agree : Agree related first last)
    (next : ∀ value twin, first = .ok value → last = .ok twin → related value twin →
      Agree wanted (firstNext value) (lastNext twin)) :
    Agree wanted (first >>= firstNext) (last >>= lastNext) := by
  cases agree with
  | ok relation => exact next _ _ rfl rfl relation
  | error fault => exact .error fault

theorem map {first : Except ε α} {last : Except ε β} {firstChange : α → γ} {lastChange : β → δ}
    (agree : Agree related first last)
    (next : ∀ value twin, related value twin → wanted (firstChange value) (lastChange twin)) :
    Agree wanted (first.map firstChange) (last.map lastChange) := by
  cases agree with
  | ok relation => exact .ok (next _ _ relation)
  | error fault => exact .error fault

theorem exists_of_ok {first : Except ε α} {last : Except ε β} {twin : β}
    (agree : Agree related first last) (done : last = .ok twin) :
    ∃ value, first = .ok value ∧ related value twin := by
  subst done
  cases agree with
  | ok relation => exact ⟨_, rfl, relation⟩

theorem mono {first : Except ε α} {last : Except ε β} {weaker : α → β → Prop}
    (agree : Agree related first last) (next : ∀ value twin, related value twin → weaker value twin) :
    Agree weaker first last := by
  cases agree with
  | ok relation => exact .ok (next _ _ relation)
  | error fault => exact .error fault

end Agree

end Except

namespace Work

variable {σ α β : Type}

def attempt (work : Work σ α) (state : σ) : Except Fault (α × σ) :=
  match work state with
  | (.ok value, next) => .ok (value, next)
  | (.error fault, _) => .error fault

@[simp] theorem attempt_pure (value : α) (state : σ) :
    attempt (pure value : Work σ α) state = .ok (value, state) := rfl

@[simp] theorem attempt_throw (fault : Fault) (state : σ) :
    attempt (throw fault : Work σ α) state = .error fault := rfl

@[simp] theorem attempt_get (state : σ) : attempt (get : Work σ σ) state = .ok (state, state) := rfl

@[simp] theorem attempt_set (next state : σ) :
    attempt (set next : Work σ Unit) state = .ok ((), next) := rfl

@[simp] theorem attempt_modify (change : σ → σ) (state : σ) :
    attempt (modify change : Work σ Unit) state = .ok ((), change state) := rfl

@[simp] theorem attempt_ofExcept (outcome : Except Fault α) (state : σ) :
    attempt (ofExcept outcome : Work σ α) state = outcome.map fun value => (value, state) := by
  cases outcome <;> rfl

theorem attempt_ofExcept_eq_ok {outcome : Except Fault α} {state next : σ} {value : α}
    (done : attempt (ofExcept outcome : Work σ α) state = .ok (value, next)) :
    outcome = .ok value ∧ next = state := by
  rw [attempt_ofExcept, Except.map_eq_ok_iff] at done
  obtain ⟨_, found, same⟩ := done
  cases same
  exact ⟨found, rfl⟩

@[simp] theorem attempt_bind (first : Work σ α) (next : α → Work σ β) (state : σ) :
    attempt (first >>= next) state =
      attempt first state >>= fun (value, state) => attempt (next value) state := by
  simp only [attempt, bind, ExceptT.bind, ExceptT.mk, StateT.bind]
  cases done : first state with
  | mk outcome left =>
      cases outcome <;> rfl

end Work

namespace Workspace

variable {α : Type}

open Work

@[simp] theorem attempt_onContext (work : Work Context α) (workspace : Workspace) :
    attempt (onContext work) workspace =
      (attempt work workspace.context).map fun (value, context) =>
        (value, { workspace with context := context }) := by
  simp only [attempt, onContext]
  cases done : work workspace.context with
  | mk outcome left =>
      cases outcome <;> rfl

@[simp] theorem attempt_changeContext (change : Context → Context) (workspace : Workspace) :
    attempt (changeContext change) workspace =
      .ok ((), { workspace with context := change workspace.context }) := rfl

@[simp] theorem attempt_fetch (table : Table) (key : String) (workspace : Workspace) :
    attempt (fetch table key) workspace =
      (workspace.transaction.get table key).map fun value => (value, workspace) := by
  simp only [fetch, attempt_bind, attempt_get, attempt_ofExcept, Except.ok_bind]

@[simp] theorem attempt_put (table : Table) (key : String) (value : Bytes) (workspace : Workspace) :
    attempt (put table key value) workspace =
      (workspace.transaction.put table key value).map fun transaction =>
        ((), { workspace with transaction := transaction }) := by
  simp only [put, attempt_bind, attempt_get, attempt_ofExcept, attempt_set, Except.ok_bind]
  cases workspace.transaction.put table key value <;> rfl

@[simp] theorem attempt_delete (table : Table) (key : String) (workspace : Workspace) :
    attempt (delete table key) workspace =
      (workspace.transaction.delete table key).map fun (_, transaction) =>
        ((), { workspace with transaction := transaction }) := by
  simp only [delete, attempt_bind, attempt_get, attempt_ofExcept, attempt_set, Except.ok_bind]
  cases workspace.transaction.delete table key <;> rfl

end Workspace

end DocumentReplication
