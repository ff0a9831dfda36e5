import DocumentReplication.Fanout.Lifecycle
import DocumentReplication.Proofs.Fanout.Distribution

/-!
The rounds of a queue, whatever is done with it and whatever fails. Between any two steps the items
that wait and the references that are noted agree with each other and with the state; and a step that
fails has changed nothing, although it works on the queue in place.
-/

namespace DocumentReplication

variable {routing : Routing} {queue next : BatchQueue}

namespace QueueWork

variable {α β : Type}

theorem run_bind (work : QueueWork α) (further : α → QueueWork β) (queue : BatchQueue) :
    (work >>= further).run.run queue = (work.run.run queue).bind fun (result, next) =>
      match result with
      | .ok value => (further value).run.run next
      | .error fault => some (.error fault, next) := by
  simp only [ExceptT.run_bind, StateT.run_bind, Option.bind_eq_bind]
  congr 1
  funext ⟨result, next⟩
  cases result <;> rfl

theorem run_get (queue : BatchQueue) :
    (get : QueueWork BatchQueue).run.run queue = some (.ok queue, queue) := rfl

theorem run_modify (change : BatchQueue → BatchQueue) (queue : BatchQueue) :
    (modify change : QueueWork Unit).run.run queue = some (.ok (), change queue) := rfl

theorem run_liftExcept (result : Except Fault α) (queue : BatchQueue) :
    (liftExcept result : QueueWork α).run.run queue = some (result, queue) := by
  cases result <;> rfl

theorem run_demand (expected : QueueState) (action : QueueAction) (queue : BatchQueue) :
    (demand expected action).run.run queue = some (queue.require expected action, queue) := by
  rw [demand, run_bind, run_get, Option.bind_some, BatchQueue.require]
  by_cases met : queue.state = expected
  · simp only [met, ne_eq, not_true_eq_false, if_false, if_true]
    rfl
  · simp only [met, ne_eq, not_false_eq_true, if_false, if_true]
    rfl

theorem run_demand_bind (expected : QueueState) (action : QueueAction)
    (further : Unit → QueueWork α) (queue : BatchQueue) :
    (demand expected action >>= further).run.run queue =
      match queue.require expected action with
      | .ok met => (further met).run.run queue
      | .error fault => some (.error fault, queue) := by
  rw [run_bind, run_demand, Option.bind_some]
  cases queue.require expected action <;> rfl

theorem run_enqueue {partition : Nat} (inside : partition < queue.pending.length) (item : Item) :
    (enqueue partition item).run.run queue = some (.ok (),
      { queue with pending := BatchQueue.append partition item queue.pending }) := by
  have there : queue.pending[partition]? = some queue.pending[partition] :=
    List.getElem?_eq_getElem inside
  rw [enqueue, run_bind, run_get, Option.bind_some, BatchQueue.append, List.modify_eq_set, there]
  simp only [there]
  rfl

theorem run_enqueueAll {copies : List (Nat × Item)}
    (inside : ∀ copy ∈ copies, copy.1 < queue.pending.length) :
    (forM copies fun (partition, item) => enqueue partition item).run.run queue = some (.ok (),
      { queue with pending := copies.foldl (fun pending (partition, item) =>
          BatchQueue.append partition item pending) queue.pending }) := by
  induction copies generalizing queue with
  | nil => rfl
  | cons copy rest ih =>
      obtain ⟨first, others⟩ := List.forall_mem_cons.mp inside
      rw [List.forM_cons, run_bind, run_enqueue first, Option.bind_some, List.foldl_cons]
      exact ih fun copy member => (BatchQueue.length_append ..).symm ▸ others copy member

theorem inside_of_route {item : Item} {partition : Nat} (shaped : queue.Shaped routing)
    (routed : queue.routing.route item = .ok partition) : partition < queue.pending.length := by
  rw [shaped.pending, ← shaped.routes]
  exact Routing.route_lt routed

theorem inside_of_copies {hash : String} {content : Bytes} (shaped : queue.Shaped routing) :
    ∀ copy ∈ queue.references.copies hash content, copy.1 < queue.pending.length := by
  intro copy member
  obtain ⟨partition, needs, rfl⟩ := List.mem_map.mp member
  rw [shaped.pending, ← shaped.references]
  exact List.mem_range.mp (List.mem_filter.mp needs).1

/-- In a queue with a place for each partition a step never reads beyond the end of a list, and one
that fails does so before it has changed anything. -/
theorem outcome_eq (shaped : queue.Shaped routing) (step : QueueStep) :
    outcome step queue = some (match queue.act step with
      | .ok (answer, next) => (.ok answer, next)
      | .error fault => (.error fault, queue)) := by
  cases step with
  | begin =>
      rw [outcome, perform, run_demand_bind, BatchQueue.act, BatchQueue.begin]
      cases queue.require .empty .beginBatch <;> rfl
  | push item =>
      rw [outcome, perform, run_demand_bind, BatchQueue.act, BatchQueue.push]
      cases queue.require .filling .acceptItem with
      | error fault => rfl
      | ok _ =>
          simp only [run_bind, run_get, run_liftExcept, Option.bind_some]
          cases routed : queue.routing.route item with
          | error fault => rfl
          | ok partition =>
              have inside := inside_of_route shaped routed
              simp only [run_modify, Option.bind_some]
              rw [run_enqueue (by exact inside)]
              rfl
  | pushPayload hash content =>
      rw [outcome, perform, run_demand_bind, BatchQueue.act, BatchQueue.pushPayload]
      cases queue.require .filling .acceptStream with
      | error fault => rfl
      | ok _ =>
          simp only [run_bind, run_get, Option.bind_some]
          rw [run_enqueueAll (inside_of_copies shaped)]
          rfl
  | handOut =>
      rw [outcome, perform, run_demand_bind, BatchQueue.act, BatchQueue.handOut]
      cases queue.require .filling .sealBatch <;> rfl
  | finish =>
      rw [outcome, perform, run_demand_bind, BatchQueue.act, BatchQueue.finish]
      cases queue.require .draining .finish <;> rfl
  | abort => rfl

theorem outcome_of_act {step : QueueStep} {answer : QueueAnswer} (shaped : queue.Shaped routing)
    (acts : queue.act step = .ok (answer, next)) :
    outcome step queue = some (.ok answer, next) := by
  rw [outcome_eq shaped, acts]

theorem outcome_of_act_error {step : QueueStep} {fault : Fault} (shaped : queue.Shaped routing)
    (fails : queue.act step = .error fault) : outcome step queue = some (.error fault, queue) := by
  rw [outcome_eq shaped, fails]

end QueueWork

namespace BatchQueue

variable {item : Item} {partition : Nat}

/-- What is noted for a partition is the first of the items there that needs the content. -/
def Noted (queue : BatchQueue) : Prop :=
  ∀ partition hash, queue.references.get? partition hash =
    (queue.pendingFor partition).findSome? (·.reference? hash)

theorem noted_create (routing : Routing) (state : QueueState) :
    Noted { create routing with state := state } := by
  intro partition hash
  rw [pendingFor_create]
  simp only [create, References.get?, References.empty, List.getElem?_replicate]
  split <;> rfl

theorem Noted.push (noted : queue.Noted) (shaped : queue.Shaped routing)
    (done : queue.push item = .ok (partition, next)) : next.Noted := by
  obtain ⟨-, routed, rfl⟩ := push_eq_ok_iff.mp done
  have waiting := QueueWork.inside_of_route shaped routed
  have known : partition < queue.references.byPartition.length := by
    rw [shaped.references, ← shaped.pending]
    exact waiting
  intro other hash
  rw [References.get?_observe known, noted, pendingFor, pendingFor, getD_append]
  by_cases met : partition = other
  · subst met
    rw [if_pos rfl, if_pos ⟨rfl, waiting⟩, List.findSome?_append, List.findSome?_singleton]
  · rw [if_neg met, if_neg fun both => met both.1, Option.or_none]

theorem Noted.pushPayload {hash : String} {content : Bytes} {copies : Nat} (noted : queue.Noted)
    (done : queue.pushPayload hash content = .ok (copies, next)) : next.Noted := by
  have same : next.references = queue.references := by
    obtain ⟨-, -, rfl⟩ := pushPayload_eq_ok_iff.mp done
    rfl
  intro partition wanted
  obtain ⟨added, waits, payloads⟩ := (adds_pushPayload done).adds partition
  have nothing : added.findSome? (·.reference? wanted) = none :=
    List.findSome?_eq_none_iff.mpr fun item member => payloads item member ▸ rfl
  rw [same, noted, waits, List.findSome?_append, nothing, Option.or_none]

theorem Reached.noted (reached : Reached routing queue) (filling : queue.state = .filling) :
    queue.Noted := by
  induction reached with
  | created => cases filling
  | begun before done _ =>
      obtain ⟨idle, rfl⟩ := begin_eq_ok_iff.mp done
      rw [before.renewed.empty idle]
      exact noted_create routing .filling
  | pushed before done noted =>
      exact (noted (push_eq_ok_iff.mp done).1).push before.renewed.toShaped done
  | copied _ done noted => exact (noted (pushPayload_eq_ok_iff.mp done).1).pushPayload done
  | handedOut _ done _ =>
      obtain ⟨-, -, rfl⟩ := handOut_eq_ok_iff.mp done
      cases filling
  | finished _ done _ =>
      obtain ⟨-, rfl⟩ := finish_eq_ok_iff.mp done
      cases filling
  | aborted _ _ => cases filling

theorem Reached.drained (reached : Reached routing queue) (draining : queue.state = .draining) :
    ∀ items ∈ queue.pending, items = [] := by
  induction reached with
  | created => cases draining
  | begun _ done _ =>
      obtain ⟨-, rfl⟩ := begin_eq_ok_iff.mp done
      cases draining
  | pushed _ done _ =>
      obtain ⟨filling, -, rfl⟩ := push_eq_ok_iff.mp done
      cases filling.symm.trans draining
  | copied _ done _ =>
      obtain ⟨filling, -, rfl⟩ := pushPayload_eq_ok_iff.mp done
      cases filling.symm.trans draining
  | handedOut _ done _ =>
      obtain ⟨-, -, rfl⟩ := handOut_eq_ok_iff.mp done
      intro items member
      obtain ⟨_, -, rfl⟩ := List.mem_map.mp member
      rfl
  | finished _ done _ =>
      obtain ⟨-, rfl⟩ := finish_eq_ok_iff.mp done
      cases draining
  | aborted _ _ => cases draining

/-- How the parts of a queue fit together in each of its states. -/
structure Lawful (queue : BatchQueue) : Prop where
  empty : queue.state = .empty → (∀ items ∈ queue.pending, items = []) ∧
    ∀ table ∈ queue.references.byPartition, table = .empty
  draining : queue.state = .draining → ∀ items ∈ queue.pending, items = []
  known : queue.state = .filling → ∀ partition hash,
    queue.references.contains partition hash = true ↔
      ∃ item ∈ queue.pendingFor partition, item.refersTo hash = true
  first : queue.state = .filling → ∀ partition hash documentId name,
    queue.references.get? partition hash = some ⟨documentId, name⟩ ↔
      ∃ early header contentType later, queue.pendingFor partition =
          early ++ .change ⟨header, .attachment documentId name contentType hash⟩ :: later ∧
        ∀ item ∈ early, item.refersTo hash = false

theorem reference?_eq_some_iff {hash documentId name : String} :
    item.reference? hash = some ⟨documentId, name⟩ ↔ ∃ header contentType,
      item = .change ⟨header, .attachment documentId name contentType hash⟩ := by
  constructor
  · unfold Item.reference?
    split
    · rename_i header owner title contentType wanted
      split
      · rename_i same
        rintro ⟨⟩
        exact ⟨header, contentType, by rw [same]⟩
      · nofun
    · nofun
  · rintro ⟨header, contentType, rfl⟩
    simp [Item.reference?]

theorem reference?_eq_none_iff {hash : String} :
    item.reference? hash = none ↔ item.refersTo hash = false := by
  rw [← Item.isSome_reference?, Option.isSome_eq_false_iff, Option.isNone_iff_eq_none]

theorem Reached.lawful (reached : Reached routing queue) : queue.Lawful := by
  refine ⟨fun idle => ?_, reached.drained, fun filling partition hash => ?_,
    fun filling partition hash documentId name => ?_⟩
  · rw [reached.renewed.empty idle]
    exact ⟨fun _ => List.eq_of_mem_replicate, fun _ => List.eq_of_mem_replicate⟩
  · rw [References.contains, reached.noted filling, List.isSome_findSome?, List.any_eq_true]
    simp only [Item.isSome_reference?]
  · rw [reached.noted filling, List.findSome?_eq_some_iff]
    constructor
    · rintro ⟨early, item, later, waits, refers, others⟩
      obtain ⟨header, contentType, rfl⟩ := reference?_eq_some_iff.mp refers
      exact ⟨early, header, contentType, later, waits,
        fun item member => reference?_eq_none_iff.mp (others item member)⟩
    · rintro ⟨early, header, contentType, later, waits, others⟩
      exact ⟨early, _, later, waits, reference?_eq_some_iff.mpr ⟨header, contentType, rfl⟩,
        fun item member => reference?_eq_none_iff.mpr (others item member)⟩

theorem Reached.act {step : QueueStep} {answer : QueueAnswer} (reached : Reached routing queue)
    (acts : queue.act step = .ok (answer, next)) : Reached routing next := by
  cases step with
  | begin =>
      obtain ⟨_, done, same⟩ := Except.map_eq_ok_iff.mp acts
      cases same
      exact .begun reached done
  | push item =>
      obtain ⟨⟨partition, _⟩, done, same⟩ := Except.map_eq_ok_iff.mp acts
      cases same
      exact .pushed reached done
  | pushPayload hash content =>
      obtain ⟨⟨copies, _⟩, done, same⟩ := Except.map_eq_ok_iff.mp acts
      cases same
      exact .copied reached done
  | handOut =>
      obtain ⟨⟨slices, _⟩, done, same⟩ := Except.map_eq_ok_iff.mp acts
      cases same
      exact .handedOut reached done
  | finish =>
      obtain ⟨_, done, same⟩ := Except.map_eq_ok_iff.mp acts
      cases same
      exact .finished reached done
  | abort =>
      cases acts
      exact .aborted reached

theorem Reached.outcome (reached : Reached routing queue) (step : QueueStep) :
    ∃ result next, QueueWork.outcome step queue = some (result, next) ∧ Reached routing next := by
  have shaped := reached.renewed.toShaped
  cases acts : queue.act step with
  | ok done => exact ⟨_, _, QueueWork.outcome_of_act shaped acts, reached.act acts⟩
  | error fault => exact ⟨_, _, QueueWork.outcome_of_act_error shaped acts, reached⟩

theorem Reached.after (reached : Reached routing queue) (steps : List QueueStep) :
    ∃ last, QueueWork.after steps queue = some last ∧ Reached routing last := by
  induction steps generalizing queue with
  | nil => exact ⟨queue, rfl, reached⟩
  | cons step rest ih =>
      obtain ⟨result, next, comes, nextReached⟩ := reached.outcome step
      obtain ⟨last, runs, lastReached⟩ := ih nextReached
      refine ⟨last, ?_, lastReached⟩
      rw [QueueWork.after, List.foldlM_cons, comes]
      exact runs

/-- A batch that was handed out is not touched any more. -/
theorem act_of_draining {step : QueueStep} (draining : queue.state = .draining)
    (unfinished : step ≠ .finish) (kept : step ≠ .abort) :
    ∃ fault, queue.act step = .error fault := by
  cases step with
  | finish => contradiction
  | abort => contradiction
  | _ =>
      simp only [BatchQueue.act, begin, push, pushPayload, handOut, require, draining]
      exact ⟨_, rfl⟩

theorem Shaped.after_of_draining (shaped : queue.Shaped routing)
    (draining : queue.state = .draining) {steps : List QueueStep} (unfinished : .finish ∉ steps)
    (kept : .abort ∉ steps) : QueueWork.after steps queue = some queue := by
  induction steps with
  | nil => rfl
  | cons step rest ih =>
      rw [List.mem_cons, not_or] at unfinished kept
      obtain ⟨fault, fails⟩ := act_of_draining draining (Ne.symm unfinished.1) (Ne.symm kept.1)
      rw [QueueWork.after, List.foldlM_cons, QueueWork.outcome_of_act_error shaped fails]
      exact ih unfinished.2 kept.2

/-- After any steps the parts of a queue fit together. Each further step gives what the queue gives as
a value, and one that fails leaves it as it is. Only a queue that was handed out is finished, and until
it is finished or given up nothing gets in. -/
theorem stays_lawful (routing : Routing) (steps : List QueueStep) :
    ∃ queue, QueueWork.after steps (create routing) = some queue ∧ queue.Lawful ∧
      (∀ step, (∃ result next, QueueWork.outcome step queue = some (result, next)) ∧
        (∀ answer next, QueueWork.outcome step queue = some (.ok answer, next) ↔
          queue.act step = .ok (answer, next)) ∧
        ∀ fault next, QueueWork.outcome step queue = some (.error fault, next) ↔
          queue.act step = .error fault ∧ next = queue) ∧
      ((∃ answer next, queue.act .finish = .ok (answer, next)) ↔ queue.state = .draining) ∧
      ∀ answer next, queue.act .handOut = .ok (answer, next) → ∀ between, .finish ∉ between →
        .abort ∉ between → QueueWork.after between next = some next ∧
          ∀ step, step ≠ .finish → step ≠ .abort → ∃ fault, next.act step = .error fault := by
  obtain ⟨queue, runs, reached⟩ := Reached.created.after steps
  refine ⟨queue, runs, reached.lawful, fun step => ?_, ?_, fun answer next hands => ?_⟩
  · rw [QueueWork.outcome_eq reached.renewed.toShaped]
    cases queue.act step with
    | ok done => simp [Prod.ext_iff]
    | error fault => simp [eq_comm]
  · simp only [BatchQueue.act, Except.map_eq_ok_iff, finish_eq_ok_iff]
    constructor
    · rintro ⟨_, _, _, ⟨draining, -⟩, -⟩
      exact draining
    · exact fun draining => ⟨_, _, _, ⟨draining, rfl⟩, rfl⟩
  · have draining : next.state = .draining := by
      obtain ⟨⟨slices, _⟩, done, same⟩ := Except.map_eq_ok_iff.mp hands
      cases same
      obtain ⟨-, -, rfl⟩ := handOut_eq_ok_iff.mp done
      rfl
    intro between unfinished kept
    exact ⟨(reached.act hands).renewed.after_of_draining draining unfinished kept,
      fun step => act_of_draining draining⟩

/-- Two documents with one photo, and a payload that is pushed as if it were a change. -/
def misplacedPhoto : List QueueStep :=
  .begin :: sharedPhoto.map .push ++
    [.push (.payload "photo-hash" [1]), .pushPayload "photo-hash" [1], .finish]

theorem stays_lawful_misplacedPhoto :
    let between : List QueueStep := [.begin, .pushPayload "photo-hash" [1], .handOut]
    ∃ queue answer next, QueueWork.after misplacedPhoto (create ⟨2, by decide⟩) = some queue ∧
      queue.Lawful ∧ queue.act .handOut = .ok (answer, next) ∧ .finish ∉ between ∧
        .abort ∉ between ∧ QueueWork.after between next = some next := by
  intro between
  obtain ⟨queue, runs, lawful, -, -, still⟩ := stays_lawful ⟨2, by decide⟩ misplacedPhoto
  have filling : (QueueWork.after misplacedPhoto (create ⟨2, by decide⟩)).map (·.state) =
      some .filling := by
    decide +kernel
  rw [runs] at filling
  have hands := handOut_eq_ok_iff.mpr ⟨Option.some.inj filling, rfl, rfl⟩
  have acts : ∃ answer next, queue.act .handOut = .ok (answer, next) :=
    ⟨_, _, Except.map_eq_ok_iff.mpr ⟨_, hands, rfl⟩⟩
  obtain ⟨answer, next, acts⟩ := acts
  have unfinished : .finish ∉ between := by decide
  have kept : .abort ∉ between := by decide
  obtain ⟨same, -⟩ := still answer next acts between unfinished kept
  exact ⟨queue, answer, next, runs, lawful, acts, unfinished, kept, same⟩

end BatchQueue

end DocumentReplication
