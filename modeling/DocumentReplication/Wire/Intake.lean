import DocumentReplication.Bytes
import DocumentReplication.Fault

/-!
Reading from a stream that may still go on. A reading either comes to an answer with the octets at
hand, or it starves: more octets could still change its outcome, and its fault is what holds if the
stream ends here.
-/

namespace DocumentReplication

inductive Intake (σ α : Type) where
  | done (value : α) (state : σ)
  | refused (fault : Fault) (state : σ)
  | starved (fault : Fault) (state : σ)
deriving Repr

namespace Intake

variable {σ τ α β : Type}

def andThen (intake : Intake σ α) (next : α → σ → Intake σ β) : Intake σ β :=
  match intake with
  | done value state => next value state
  | refused fault state => refused fault state
  | starved fault state => starved fault state

def check (intake : Intake σ α) (accept : α → Except Fault β) : Intake σ β :=
  intake.andThen fun value state =>
    match accept value with
    | .ok result => done result state
    | .error fault => refused fault state

def lift (intake : Intake σ α) (enlarge : σ → τ) : Intake τ α :=
  match intake with
  | done value state => done value (enlarge state)
  | refused fault state => refused fault (enlarge state)
  | starved fault state => starved fault (enlarge state)

def mapFault (change : Fault → Fault) : Intake σ α → Intake σ α
  | done value state => done value state
  | refused fault state => refused (change fault) state
  | starved fault state => starved (change fault) state

/-- What holds if nothing more arrives. -/
def settle : Intake σ α → Except Fault α × σ
  | done value state => (.ok value, state)
  | refused fault state | starved fault state => (.error fault, state)

theorem andThen_eq_done_iff {intake : Intake σ α} {next : α → σ → Intake σ β} {result : β}
    {state : σ} :
    intake.andThen next = done result state ↔
      ∃ value middle, intake = done value middle ∧ next value middle = done result state := by
  cases intake with
  | done value middle =>
      constructor
      · exact fun found => ⟨value, middle, rfl, found⟩
      · rintro ⟨_, _, same, found⟩
        cases same
        exact found
  | refused fault state => simp [andThen]
  | starved fault state => simp [andThen]

end Intake

end DocumentReplication
