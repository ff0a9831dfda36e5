import DocumentReplication.Proofs.Connection.Ready
import DocumentReplication.Proofs.Fanout.Queue

/-!
What each partition gets of a batch: its changes in the order they came, then a copy of each payload
that one of its attachments names. A queue that took some changes and payloads holds exactly that, as
each further one shows, so a batch comes out of it with nothing lost, doubled or reordered.
-/

namespace DocumentReplication

/-- An attachment with that hash. -/
def Item.refersTo (hash : String) : Item → Bool
  | .change ⟨_, .attachment _ _ _ wanted⟩ => wanted = hash
  | _ => false

/-- Where an item needs the content with that hash. -/
def Item.reference? (hash : String) : Item → Option AttachmentReference
  | .change ⟨_, .attachment documentId name _ wanted⟩ =>
    if wanted = hash then some ⟨documentId, name⟩ else none
  | _ => none

theorem Item.isSome_reference? (hash : String) (item : Item) :
    (item.reference? hash).isSome = item.refersTo hash := by
  unfold reference? refersTo
  split
  · split <;> simp [*]
  · rfl

namespace References

variable {references : References} {item : Item} {partition other : Nat} {hash : String}

theorem reference?_eq (hash : String) (item : Item) :
    item.reference? hash = (ofItem? item).bind fun (wanted, reference) =>
      if wanted = hash then some reference else none := by
  fun_cases ofItem? item with
  | case1 => rfl
  | case2 _ none =>
      unfold Item.reference?
      split
      · exact absurd rfl (none _ _ _ _ _)
      · rfl

/-- What is noted first stays noted. -/
theorem get?_observe (inside : partition < references.byPartition.length) :
    (references.observe partition item).2.get? other hash = (references.get? other hash).or
      (if partition = other then item.reference? hash else none) := by
  rw [observe, reference?_eq]
  cases found : ofItem? item with
  | none => simp
  | some noted =>
      obtain ⟨wanted, reference⟩ := noted
      simp only [Option.bind_some]
      split
      case isTrue known =>
        have known : (references.get? partition wanted).isSome = true := by
          simpa [Nat.not_le.mpr inside, contains] using known
        by_cases met : partition = other ∧ wanted = hash
        · obtain ⟨rfl, rfl⟩ := met
          rw [Option.or_of_isSome known]
        · have apart : (if partition = other then
              if wanted = hash then some reference else none else none) = none := by
            simpa using met
          rw [apart, Option.or_none]
      case isFalse new =>
        have new : references.get? partition wanted = none := by
          simpa [Nat.not_le.mpr inside, contains] using new
        by_cases met : partition = other
        · subst met
          by_cases same : wanted = hash
          · subst same
            rw [new]
            simp [get?, inside]
          · simp [get?, Dictionary.get?_insert, inside, same]
        · simp [get?, met]

theorem contains_observe (inside : partition < references.byPartition.length) :
    (references.observe partition item).2.contains other hash =
      (references.contains other hash || (decide (partition = other) && item.refersTo hash)) := by
  rw [contains, get?_observe inside, Option.isSome_or, ← Item.isSome_reference?, contains]
  split
  case isTrue met => simp [met]
  case isFalse apart => simp [apart]

end References

namespace BatchQueue

variable {routing : Routing} {queue next : BatchQueue} {item : Item} {items : List Item}
  {payloads : List (String × Bytes)} {partition : Nat}

/-- The items that are routed to a partition. -/
def routedTo (routing : Routing) (items : List Item) (partition : Nat) : List Item :=
  items.filter fun item => routing.route item = .ok partition

/-- What a partition is due of a batch. -/
def share (routing : Routing) (items : List Item) (payloads : List (String × Bytes))
    (partition : Nat) : List Item :=
  let mine := routedTo routing items partition
  let needed := payloads.filter fun payload => mine.any (·.refersTo payload.1)
  mine ++ needed.map fun payload => .payload payload.1 payload.2

theorem lt_of_routedTo {other : Nat} (member : item ∈ routedTo routing items other) :
    other < routing.partitionCount :=
  Routing.route_lt (of_decide_eq_true (List.mem_filter.mp member).2)

theorem share_push (items : List Item) (item : Item) (other : Nat) :
    share routing (items ++ [item]) [] other =
      if routing.route item = .ok other then share routing items [] other ++ [item]
      else share routing items [] other := by
  by_cases mine : routing.route item = .ok other
  · simp [share, routedTo, mine]
  · simp [share, routedTo, mine]

theorem share_pushPayload (items : List Item) (payloads : List (String × Bytes))
    (payload : String × Bytes) (other : Nat) :
    share routing items (payloads ++ [payload]) other =
      if (routedTo routing items other).any (·.refersTo payload.1) then
        share routing items payloads other ++ [.payload payload.1 payload.2]
      else share routing items payloads other := by
  by_cases needed : (routedTo routing items other).any (·.refersTo payload.1)
  · simp [share, needed]
  · simp [share, needed]

/-- A share names as its attachments what its items do: payloads are none. -/
theorem any_refersTo_share (items : List Item) (payloads : List (String × Bytes)) (hash : String)
    (other : Nat) : (share routing items payloads other).any (·.refersTo hash) =
      (routedTo routing items other).any (·.refersTo hash) := by
  rw [share, List.any_append, Bool.or_eq_left_iff_imp]
  intro payload
  simp [Item.refersTo] at payload

theorem getD_appendEach {partitions : List Nat} (distinct : partitions.Nodup)
    (pending : List (List Item)) (item : Item) (other : Nat) :
    ((partitions.map fun partition => (partition, item)).foldl
        (fun pending (partition, item) => append partition item pending) pending).getD other [] =
      if other ∈ partitions ∧ other < pending.length then pending.getD other [] ++ [item]
      else pending.getD other [] := by
  induction partitions generalizing pending with
  | nil => simp
  | cons partition rest ih =>
      obtain ⟨absent, distinct⟩ := List.nodup_cons.mp distinct
      rw [List.map_cons, List.foldl_cons, ih distinct, length_append, getD_append]
      by_cases met : partition = other
      · subst met
        simp [absent]
      · simp [met, Ne.symm met]

/-- A queue that took these items and these payloads since its batch began. -/
structure Took (routing : Routing) (items : List Item) (payloads : List (String × Bytes))
    (queue : BatchQueue) : Prop extends Shaped routing queue where
  state : queue.state = .filling
  waits : ∀ partition, queue.pendingFor partition = share routing items payloads partition
  refers : ∀ partition hash, queue.references.contains partition hash =
    (routedTo routing items partition).any (·.refersTo hash)

namespace Took

theorem waits_push (took : Took routing items [] queue)
    (routed : routing.route item = .ok partition) (other : Nat) :
    (append partition item queue.pending).getD other [] =
      share routing (items ++ [item]) [] other := by
  have before := took.waits other
  rw [pendingFor] at before
  rw [getD_append, before, share_push, routed]
  by_cases met : partition = other
  · subst met
    rw [if_pos ⟨rfl, took.pending ▸ Routing.route_lt routed⟩, if_pos rfl]
  · have elsewhere : ¬ Except.ok (ε := Fault) partition = .ok other :=
      fun same => met (Except.ok.inj same)
    rw [if_neg fun both => met both.1, if_neg elsewhere]

theorem refers_push (took : Took routing items payloads queue)
    (routed : routing.route item = .ok partition) (other : Nat) (hash : String) :
    (queue.references.observe partition item).2.contains other hash =
      (routedTo routing (items ++ [item]) other).any (·.refersTo hash) := by
  have known : partition < queue.references.byPartition.length :=
    took.references ▸ Routing.route_lt routed
  rw [References.contains_observe known, took.refers, routedTo, routedTo, List.filter_append,
    List.any_append]
  by_cases met : partition = other
  · simp [routed, met]
  · simp [routed, met]

theorem push (took : Took routing items [] queue) (routed : routing.route item = .ok partition) :
    ∃ next, queue.push item = .ok (partition, next) ∧ Took routing (items ++ [item]) [] next := by
  have pushed : queue.push item = .ok (partition, { queue with
      pending := append partition item queue.pending
      references := (queue.references.observe partition item).2 }) :=
    push_eq_ok_iff.mpr ⟨took.state, took.routes ▸ routed, rfl⟩
  exact ⟨_, pushed, took.toShaped.push pushed, took.state, took.waits_push routed,
    took.refers_push routed⟩

theorem partitionsFor_eq (took : Took routing items payloads queue) (hash : String) :
    queue.references.partitionsFor hash = (List.range routing.partitionCount).filter
      fun partition => (routedTo routing items partition).any (·.refersTo hash) := by
  simp only [References.partitionsFor, took.references, took.refers]

theorem length_copies (took : Took routing items payloads queue) (payload : String × Bytes) :
    (queue.references.copies payload.1 payload.2).length =
      (List.range routing.partitionCount).countP fun partition =>
        (routedTo routing items partition).any (·.refersTo payload.1) := by
  simp only [References.copies, took.partitionsFor_eq, List.length_map, List.countP_eq_length_filter]

theorem mem_partitionsFor_iff (took : Took routing items payloads queue) (hash : String)
    (other : Nat) :
    other ∈ queue.references.partitionsFor hash ∧ other < queue.pending.length ↔
      (routedTo routing items other).any (·.refersTo hash) = true := by
  rw [took.partitionsFor_eq, took.pending, List.mem_filter, List.mem_range]
  refine ⟨fun both => both.1.2, fun needed => ?_⟩
  obtain ⟨item, member, -⟩ := List.any_eq_true.mp needed
  exact ⟨⟨lt_of_routedTo member, needed⟩, lt_of_routedTo member⟩

theorem waits_pushPayload (took : Took routing items payloads queue) (payload : String × Bytes)
    (other : Nat) :
    ((queue.references.copies payload.1 payload.2).foldl
        (fun pending (partition, item) => append partition item pending) queue.pending).getD other [] =
      share routing items (payloads ++ [payload]) other := by
  have before := took.waits other
  rw [pendingFor] at before
  have distinct : (queue.references.partitionsFor payload.1).Nodup := List.nodup_range.filter _
  have appended := getD_appendEach distinct queue.pending (.payload payload.1 payload.2) other
  simp only [took.mem_partitionsFor_iff, before] at appended
  rw [share_pushPayload, ← appended, References.copies]

theorem pushPayload (took : Took routing items payloads queue) (payload : String × Bytes) :
    ∃ next, queue.pushPayload payload.1 payload.2 = .ok
        ((List.range routing.partitionCount).countP fun partition =>
          (routedTo routing items partition).any (·.refersTo payload.1), next) ∧
      Took routing items (payloads ++ [payload]) next := by
  let copies := queue.references.copies payload.1 payload.2
  have pushed : queue.pushPayload payload.1 payload.2 = .ok (copies.length, { queue with
      pending := copies.foldl (fun pending (partition, item) => append partition item pending)
        queue.pending }) :=
    pushPayload_eq_ok_iff.mpr ⟨took.state, rfl, rfl⟩
  exact ⟨_, by rw [pushed, took.length_copies], took.toShaped.pushPayload pushed, took.state,
    took.waits_pushPayload payload, took.refers⟩

theorem pushAll {earlier : List Item} (took : Took routing earlier [] queue)
    (routable : ∀ item ∈ items, ∃ partition, routing.route item = .ok partition) :
    ∃ next, (items.foldlM (fun queue item => (BatchQueue.push item queue).map (·.2)) queue :
      Except Fault BatchQueue) = .ok next ∧ Took routing (earlier ++ items) [] next := by
  induction items generalizing earlier queue with
  | nil => exact ⟨queue, rfl, (List.append_nil earlier).symm ▸ took⟩
  | cons item rest ih =>
      obtain ⟨partition, routed⟩ := routable item List.mem_cons_self
      obtain ⟨middle, pushed, middleTook⟩ := took.push routed
      obtain ⟨next, others, nextTook⟩ :=
        ih middleTook fun later member => routable later (List.mem_cons_of_mem _ member)
      refine ⟨next, ?_, by simpa using nextTook⟩
      rw [List.foldlM_cons, pushed, Except.map_ok, Except.ok_bind, others]

theorem pushPayloads {earlier : List (String × Bytes)} (took : Took routing items earlier queue)
    (payloads : List (String × Bytes)) :
    ∃ next, (payloads.foldlM (fun queue (hash, content) =>
        (BatchQueue.pushPayload hash content queue).map (·.2)) queue : Except Fault BatchQueue) =
          .ok next ∧
      Took routing items (earlier ++ payloads) next := by
  induction payloads generalizing earlier queue with
  | nil => exact ⟨queue, rfl, (List.append_nil earlier).symm ▸ took⟩
  | cons payload rest ih =>
      obtain ⟨hash, content⟩ := payload
      obtain ⟨middle, pushed, middleTook⟩ := took.pushPayload (hash, content)
      obtain ⟨next, others, nextTook⟩ := ih middleTook
      refine ⟨next, ?_, by simpa using nextTook⟩
      simp only [List.foldlM_cons, pushed, Except.map_ok, Except.ok_bind, others]

/-- Routable items and any payloads all go in. -/
theorem fill (took : Took routing [] [] queue)
    (routable : ∀ item ∈ items, ∃ partition, routing.route item = .ok partition)
    (payloads : List (String × Bytes)) :
    ∃ next, queue.fill items payloads = .ok next ∧ Took routing items payloads next := by
  obtain ⟨middle, pushed, middleTook⟩ := took.pushAll routable
  obtain ⟨next, copied, nextTook⟩ := middleTook.pushPayloads payloads
  exact ⟨next, Except.bind_eq_ok_iff.mpr ⟨middle, pushed, copied⟩, nextTook⟩

theorem handOut (took : Took routing items payloads queue) :
    ∃ next, queue.handOut =
      .ok (slicesFor routing.partitionCount (share routing items payloads), next) := by
  obtain ⟨slices, next, done⟩ : ∃ slices next, queue.handOut = .ok (slices, next) :=
    ⟨_, _, handOut_eq_ok_iff.mpr ⟨took.state, rfl, rfl⟩⟩
  have same : queue.pendingFor = share routing items payloads := funext took.waits
  exact ⟨next, by rw [done, handOut_eq done, took.pending, same]⟩

end Took

/-- The queues that come about by whatever is done, in any order. -/
inductive Reached (routing : Routing) : BatchQueue → Prop
  | created : Reached routing (create routing)
  | begun {queue next : BatchQueue} : Reached routing queue → queue.begin = .ok next →
    Reached routing next
  | pushed {queue next : BatchQueue} {item : Item} {partition : Nat} : Reached routing queue →
    queue.push item = .ok (partition, next) → Reached routing next
  | copied {queue next : BatchQueue} {hash : String} {content : Bytes} {copies : Nat} :
    Reached routing queue → queue.pushPayload hash content = .ok (copies, next) →
    Reached routing next
  | handedOut {queue next : BatchQueue} {slices : List PartitionSlice} : Reached routing queue →
    queue.handOut = .ok (slices, next) → Reached routing next
  | finished {queue next : BatchQueue} : Reached routing queue → queue.finish = .ok next →
    Reached routing next
  | aborted {queue : BatchQueue} : Reached routing queue → Reached routing queue.abort

/-- A queue in which nothing is left of the batches before once it is empty. -/
structure Renewed (routing : Routing) (queue : BatchQueue) : Prop extends Shaped routing queue where
  empty : queue.state = .empty → queue = create routing

theorem Reached.renewed (reached : Reached routing queue) : Renewed routing queue := by
  have created : Renewed routing (create routing) := ⟨shaped_create routing .empty, fun _ => rfl⟩
  induction reached with
  | created => exact created
  | begun _ done renewed =>
      obtain ⟨-, rfl⟩ := begin_eq_ok_iff.mp done
      exact ⟨⟨renewed.routes, renewed.pending, renewed.references⟩, nofun⟩
  | pushed _ done renewed =>
      refine ⟨renewed.push done, fun empty => ?_⟩
      obtain ⟨filling, -, rfl⟩ := push_eq_ok_iff.mp done
      cases filling.symm.trans empty
  | copied _ done renewed =>
      refine ⟨renewed.pushPayload done, fun empty => ?_⟩
      obtain ⟨filling, -, rfl⟩ := pushPayload_eq_ok_iff.mp done
      cases filling.symm.trans empty
  | handedOut _ done renewed =>
      obtain ⟨-, -, rfl⟩ := handOut_eq_ok_iff.mp done
      exact ⟨⟨renewed.routes, (List.length_map ..).trans renewed.pending, renewed.references⟩, nofun⟩
  | finished _ done renewed =>
      obtain ⟨-, rfl⟩ := finish_eq_ok_iff.mp done
      exact renewed.abort ▸ created
  | aborted _ renewed => exact renewed.abort ▸ created

/-- A batch begins with nothing taken, whatever the queue was used for before. -/
theorem Reached.took_begin (reached : Reached routing queue) (begins : queue.begin = .ok next) :
    Took routing [] [] next := by
  obtain ⟨idle, rfl⟩ := begin_eq_ok_iff.mp begins
  rw [reached.renewed.empty idle]
  refine ⟨shaped_create routing .filling, rfl, fun partition => ?_, fun partition hash => ?_⟩
  · rw [pendingFor_create]
    rfl
  · simp only [create, References.contains, References.get?, References.empty,
      List.getElem?_replicate]
    split <;> rfl

/-- A batch comes out of the queue as the shares of the partitions, and each payload tells how many
of them got it. -/
theorem Reached.distributes (reached : Reached routing queue) (begins : queue.begin = .ok next)
    (routable : ∀ item ∈ items, ∃ partition, routing.route item = .ok partition)
    (payloads : List (String × Bytes)) :
    ∃ filled slices drained, next.fill items payloads = .ok filled ∧
      filled.handOut = .ok (slices, drained) ∧
      slices = slicesFor routing.partitionCount (share routing items payloads) ∧
      ∀ early hash content later, payloads = early ++ (hash, content) :: later →
        ∃ before after, next.fill items early = .ok before ∧
          before.pushPayload hash content =
            .ok (slices.countP fun slice => slice.items.any (·.refersTo hash), after) := by
  have took := reached.took_begin begins
  obtain ⟨filled, fills, filledTook⟩ := took.fill routable payloads
  obtain ⟨drained, out⟩ := filledTook.handOut
  refine ⟨filled, _, drained, fills, out, rfl, fun early hash content later _ => ?_⟩
  obtain ⟨before, done, beforeTook⟩ := took.fill routable early
  obtain ⟨after, pushed, -⟩ := beforeTook.pushPayload (hash, content)
  refine ⟨before, after, done, ?_⟩
  rw [pushed, slicesFor, List.countP_map]
  simp only [Function.comp_def, any_refersTo_share]

/-- Two documents with one photo, and a document without. -/
def sharedPhoto : List Item := [
  .change ⟨⟨"RV:5-A", 5, .epoch, 0⟩, .attachment "users/1" "photo" "image/png" "photo-hash"⟩,
  .change ⟨⟨"RV:6-A", 6, .epoch, 0⟩, .document "users/3" "users" [3]⟩,
  .change ⟨⟨"RV:7-A", 7, .epoch, 0⟩, .attachment "users/2" "photo" "image/png" "photo-hash"⟩]

theorem distributes_sharedPhoto :
    let routing : Routing := ⟨2, by decide⟩
    let payloads : List (String × Bytes) := [("photo-hash", [1]), ("other", [2]), ("photo-hash", [1])]
    ∃ next filled slices drained, (create routing).abort.begin = .ok next ∧
      next.fill sharedPhoto payloads = .ok filled ∧ filled.handOut = .ok (slices, drained) ∧
      slices = slicesFor 2 (share routing sharedPhoto payloads) ∧
      ∃ before after, next.fill sharedPhoto [("photo-hash", [1])] = .ok before ∧
        before.pushPayload "other" [2] =
          .ok (slices.countP fun slice => slice.items.any (·.refersTo "other"), after) := by
  intro routing payloads
  have routable : ∀ item ∈ sharedPhoto, ∃ partition, routing.route item = .ok partition := by
    intro item member
    simp only [sharedPhoto, List.mem_cons, List.not_mem_nil, or_false] at member
    rcases member with rfl | rfl | rfl <;> exact ⟨_, rfl⟩
  obtain ⟨filled, slices, drained, fills, out, same, counts⟩ :=
    Reached.distributes (.aborted .created) (rfl : (create routing).abort.begin = .ok _) routable
      payloads
  obtain ⟨before, after, done, pushed⟩ :=
    counts [("photo-hash", [1])] "other" [2] [("photo-hash", [1])] rfl
  exact ⟨_, filled, slices, drained, rfl, fills, out, same, before, after, done, pushed⟩

end BatchQueue

end DocumentReplication
