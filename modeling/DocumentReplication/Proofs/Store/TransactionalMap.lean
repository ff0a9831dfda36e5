import DocumentReplication.Proofs.Work
import DocumentReplication.Store.Partition

/-!
Tables that are changed by transactions, as their clients see them: what a client asks for, one
transaction at a time with reads of what is committed in between, and what it is answered. Where the
operations of two such maps agree, whole runs over them do.
-/

namespace DocumentReplication

/-- Tables of octets: `σ` is what is committed, and `τ` is a transaction over it. -/
structure TransactionalMap (σ τ : Type) where
  begin : σ → τ
  read : σ → Table → String → Except Fault (Option Bytes)
  get : τ → Table → String → Except Fault (Option Bytes)
  put : τ → Table → String → Bytes → Except Fault τ
  delete : τ → Table → String → Except Fault (Bool × τ)
  commit : τ → σ

/-- What a client may ask for while its transaction is open. -/
inductive StoreStep where
  | get (table : Table) (key : String)
  | put (table : Table) (key : String) (value : Bytes)
  | delete (table : Table) (key : String)
  /-- Reads past the transaction, as those outside of it do. -/
  | read (table : Table) (key : String)
deriving DecidableEq, Repr

/-- What a client may ask for while no transaction is open. One that was begun is committed or dropped
before anything else. -/
inductive StoreAction where
  | read (table : Table) (key : String)
  | transaction (steps : List StoreStep) (committed : Bool)
deriving Repr

inductive StoreAnswer where
  | found (value : Option Bytes)
  | written
  | deleted (present : Bool)
  | refused (fault : Fault)
deriving DecidableEq, Repr

namespace StoreStep

def key : StoreStep → String
  | get _ key | put _ key _ | delete _ key | read _ key => key

end StoreStep

namespace StoreAction

def keys : StoreAction → List String
  | read _ key => [key]
  | transaction steps _ => steps.map (·.key)

end StoreAction

def StoreAnswer.ofFound : Except Fault (Option Bytes) → StoreAnswer
  | .ok value => .found value
  | .error fault => .refused fault

namespace TransactionalMap

section

variable {σ τ : Type} (map : TransactionalMap σ τ)

def attempt (store : σ) (work : τ) : StoreStep → Except Fault (StoreAnswer × τ)
  | .get table key => (map.get work table key).map fun value => (.found value, work)
  | .put table key value => (map.put work table key value).map fun next => (.written, next)
  | .delete table key =>
    (map.delete work table key).map fun (present, next) => (.deleted present, next)
  | .read table key => (map.read store table key).map fun value => (.found value, work)

/-- A refused step leaves the transaction as it was. -/
def perform (store : σ) (work : τ) (step : StoreStep) : StoreAnswer × τ :=
  match map.attempt store work step with
  | .ok result => result
  | .error fault => (.refused fault, work)

def performAll (store : σ) : List StoreStep → τ → List StoreAnswer × τ
  | [], work => ([], work)
  | step :: steps, work =>
    let (answer, next) := map.perform store work step
    let (answers, last) := performAll store steps next
    (answer :: answers, last)

def act (store : σ) : StoreAction → List StoreAnswer × σ
  | .read table key => ([.ofFound (map.read store table key)], store)
  | .transaction steps committed =>
    let (answers, work) := map.performAll store steps (map.begin store)
    (answers, if committed then map.commit work else store)

/-- The answers to a client and what is committed in the end. -/
def run : List StoreAction → σ → List StoreAnswer × σ
  | [], store => ([], store)
  | action :: actions, store =>
    let (answers, next) := map.act store action
    let (others, last) := run actions next
    (answers ++ others, last)

end

variable {σ τ ρ υ : Type} {map : TransactionalMap σ τ} {plain : TransactionalMap ρ υ}
  {used : String → Prop} {stores : σ → ρ → Prop} {works : τ → υ → Prop}

/-- One map implements another as far as some keys are concerned: each operation gives the same
result on related states and leaves related ones. -/
structure Implements (map : TransactionalMap σ τ) (plain : TransactionalMap ρ υ)
    (used : String → Prop) (stores : σ → ρ → Prop) (works : τ → υ → Prop) : Prop where
  begin : ∀ {store twin}, stores store twin → works (map.begin store) (plain.begin twin)
  read : ∀ {store twin}, stores store twin → ∀ table {key}, used key →
    map.read store table key = plain.read twin table key
  get : ∀ {work twin}, works work twin → ∀ table {key}, used key →
    map.get work table key = plain.get twin table key
  put : ∀ {work twin}, works work twin → ∀ table {key}, used key → ∀ value,
    Except.Agree works (map.put work table key value) (plain.put twin table key value)
  delete : ∀ {work twin}, works work twin → ∀ table {key}, used key →
    Except.Agree (fun result other => result.1 = other.1 ∧ works result.2 other.2)
      (map.delete work table key) (plain.delete twin table key)
  commit : ∀ {work twin}, works work twin → stores (map.commit work) (plain.commit twin)

namespace Implements

variable {store : σ} {twin : ρ} {work : τ} {other : υ}

theorem attempt (implements : Implements map plain used stores works) (same : stores store twin)
    (alike : works work other) (step : StoreStep) (uses : used step.key) :
    Except.Agree (fun result twin => result.1 = twin.1 ∧ works result.2 twin.2)
      (map.attempt store work step) (plain.attempt twin other step) := by
  cases step with
  | get table key =>
      exact (Except.Agree.of_eq (implements.get alike table uses)).map fun _ _ equal =>
        ⟨congrArg _ equal, alike⟩
  | put table key value =>
      exact (implements.put alike table uses value).map fun _ _ next => ⟨rfl, next⟩
  | delete table key =>
      exact (implements.delete alike table uses).map fun _ _ next =>
        ⟨congrArg _ next.1, next.2⟩
  | read table key =>
      exact (Except.Agree.of_eq (implements.read same table uses)).map fun _ _ equal =>
        ⟨congrArg _ equal, alike⟩

theorem perform (implements : Implements map plain used stores works) (same : stores store twin)
    (alike : works work other) (step : StoreStep) (uses : used step.key) :
    (map.perform store work step).1 = (plain.perform twin other step).1 ∧
      works (map.perform store work step).2 (plain.perform twin other step).2 := by
  have agree := implements.attempt same alike step uses
  unfold TransactionalMap.perform
  generalize map.attempt store work step = first at agree
  generalize plain.attempt twin other step = last at agree
  cases agree with
  | ok related => exact related
  | error fault => exact ⟨rfl, alike⟩

theorem performAll (implements : Implements map plain used stores works) (same : stores store twin)
    (steps : List StoreStep) (uses : ∀ step ∈ steps, used step.key) (alike : works work other) :
    (map.performAll store steps work).1 = (plain.performAll twin steps other).1 ∧
      works (map.performAll store steps work).2 (plain.performAll twin steps other).2 := by
  induction steps generalizing work other with
  | nil => exact ⟨rfl, alike⟩
  | cons step steps ih =>
      obtain ⟨first, rest⟩ := List.forall_mem_cons.mp uses
      obtain ⟨answer, next⟩ := implements.perform same alike step first
      obtain ⟨answers, last⟩ := ih rest next
      exact ⟨congr (congrArg List.cons answer) answers, last⟩

theorem act (implements : Implements map plain used stores works) (same : stores store twin)
    (action : StoreAction) (uses : ∀ key ∈ action.keys, used key) :
    (map.act store action).1 = (plain.act twin action).1 ∧
      stores (map.act store action).2 (plain.act twin action).2 := by
  cases action with
  | read table key =>
      have equal := implements.read same table (uses key List.mem_cons_self)
      exact ⟨by simp only [TransactionalMap.act, equal], same⟩
  | transaction steps committed =>
      obtain ⟨answers, last⟩ := implements.performAll same steps
        (fun step member => uses step.key (List.mem_map_of_mem member)) (implements.begin same)
      refine ⟨answers, ?_⟩
      cases committed with
      | true => exact implements.commit last
      | false => exact same

/-- A client that uses no other keys cannot tell the maps apart. -/
theorem run (implements : Implements map plain used stores works) (actions : List StoreAction)
    (uses : ∀ action ∈ actions, ∀ key ∈ action.keys, used key) (same : stores store twin) :
    (map.run actions store).1 = (plain.run actions twin).1 ∧
      stores (map.run actions store).2 (plain.run actions twin).2 := by
  induction actions generalizing store twin with
  | nil => exact ⟨rfl, same⟩
  | cons action actions ih =>
      obtain ⟨first, rest⟩ := List.forall_mem_cons.mp uses
      obtain ⟨answers, next⟩ := implements.act same action first
      obtain ⟨others, last⟩ := ih rest next
      exact ⟨congr (congrArg HAppend.hAppend answers) others, last⟩

end Implements

end TransactionalMap

end DocumentReplication
