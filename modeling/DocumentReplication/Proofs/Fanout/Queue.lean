import DocumentReplication.Fanout.Queue
import DocumentReplication.Proofs.Commit.History

/-!
The queue keeps what it is given: an item is handed out in the slice of the partition it is routed
to, and every payload in a slice has the hash it is named by.
-/

namespace DocumentReplication

namespace Routing

variable {routing : Routing} {change : Change}

theorem of_route_eq_error {fault : Fault} (failed : routing.route (.change change) = .error fault) :
    ∃ revision, fault = .unsupported (.revisionWithoutDocument revision) := by
  simp only [route] at failed
  split at failed
  · rename_i revision collection shape
    split at failed
    · contradiction
    · cases failed
      exact ⟨revision, rfl⟩
  all_goals contradiction

theorem route_of_revisionTombstone (several : routing.partitionCount ≠ 1)
    (revision : change.kind = .revisionTombstone) : ∃ revision,
      routing.route (.change change) = .error (.unsupported (.revisionWithoutDocument revision)) := by
  unfold Change.kind ChangeBody.kind at revision
  cases shape : change.body with
  | revisionTombstone revision collection =>
      exact ⟨revision, by simp only [route, shape, several, if_false]⟩
  | _ =>
      rw [shape] at revision
      contradiction

end Routing

namespace BatchQueue

variable {queue next : BatchQueue} {item entry : Item} {items : List Item} {partition other : Nat}
  {pending : List (List Item)} {payloads : List (String × Bytes)} {slices : List PartitionSlice}
  {sort : Item → Prop}

theorem require_bind_eq_ok_iff {α : Type} {expected : QueueState} {action : QueueAction}
    {step : Unit → Except Fault α} {result : α} :
    (queue.require expected action >>= step) = .ok result ↔
      queue.state = expected ∧ step () = .ok result := by
  unfold require
  split
  case isTrue met => rw [Except.ok_bind, and_iff_right met]
  case isFalse other => simp [other]

theorem begin_eq_ok_iff :
    queue.begin = .ok next ↔ queue.state = .empty ∧ next = { queue with state := .filling } := by
  simp only [begin, require_bind_eq_ok_iff, Except.pure_eq_ok, Except.ok.injEq, eq_comm (b := next)]

theorem push_eq_ok_iff :
    queue.push item = .ok (partition, next) ↔
      queue.state = .filling ∧ queue.routing.route item = .ok partition ∧ next = { queue with
        pending := append partition item queue.pending
        references := (queue.references.observe partition item).2 } := by
  rw [push, require_bind_eq_ok_iff]
  simp only [Except.bind_eq_ok_iff, Except.pure_eq_ok, Except.ok.injEq, Prod.mk.injEq]
  constructor
  · rintro ⟨filling, owner, routed, rfl, rfl⟩
    exact ⟨filling, routed, rfl⟩
  · rintro ⟨filling, routed, rfl⟩
    exact ⟨filling, partition, routed, rfl, rfl⟩

theorem pushPayload_eq_ok_iff {hash : String} {content : Bytes} {copies : Nat} :
    queue.pushPayload hash content = .ok (copies, next) ↔
      queue.state = .filling ∧ copies = (queue.references.copies hash content).length ∧
        next = { queue with
          pending := (queue.references.copies hash content).foldl (fun pending (partition, item) =>
            append partition item pending) queue.pending } := by
  simp only [pushPayload, require_bind_eq_ok_iff, Except.pure_eq_ok, Except.ok.injEq,
    Prod.mk.injEq, eq_comm (b := copies), eq_comm (b := next)]

theorem handOut_eq_ok_iff :
    queue.handOut = .ok (slices, next) ↔
      queue.state = .filling ∧
        slices = queue.pending.zipIdx.map (fun (items, partition) => ⟨partition, items⟩) ∧
          next = { queue with state := .draining, pending := queue.pending.map fun _ => [] } := by
  simp only [handOut, require_bind_eq_ok_iff, Except.pure_eq_ok, Except.ok.injEq, Prod.mk.injEq,
    eq_comm (b := slices), eq_comm (b := next)]

theorem finish_eq_ok_iff :
    queue.finish = .ok next ↔ queue.state = .draining ∧ next = queue.abort := by
  simp only [finish, require_bind_eq_ok_iff, Except.pure_eq_ok, Except.ok.injEq,
    eq_comm (b := next)]

/-- There is a place for every partition, and what waits there is verified. -/
structure Sound (queue : BatchQueue) : Prop where
  length : queue.pending.length = queue.routing.partitionCount
  verified : ∀ partition, ∀ item ∈ queue.pendingFor partition, item.Verified

/-- A queue that got more items. -/
structure Extends (queue next : BatchQueue) : Prop where
  routing : next.routing = queue.routing
  keeps : ∀ partition, ∀ item ∈ queue.pendingFor partition, item ∈ next.pendingFor partition

theorem Extends.refl (queue : BatchQueue) : queue.Extends queue := ⟨rfl, fun _ _ => id⟩

theorem Extends.trans {middle : BatchQueue} (first : queue.Extends middle)
    (last : middle.Extends next) : queue.Extends next :=
  ⟨last.routing.trans first.routing,
    fun partition item member => last.keeps partition item (first.keeps partition item member)⟩

/-- A queue where items of some sort were put behind those that waited already. -/
structure Adds (sort : Item → Prop) (queue next : BatchQueue) : Prop where
  state : next.state = queue.state
  routing : next.routing = queue.routing
  length : next.pending.length = queue.pending.length
  adds : ∀ partition, ∃ added, next.pendingFor partition = queue.pendingFor partition ++ added ∧
    ∀ item ∈ added, sort item

theorem Adds.refl (queue : BatchQueue) : Adds sort queue queue :=
  ⟨rfl, rfl, rfl, fun _ => ⟨[], (List.append_nil _).symm, List.forall_mem_nil sort⟩⟩

theorem Adds.trans {middle : BatchQueue} (first : Adds sort queue middle)
    (last : Adds sort middle next) : Adds sort queue next := by
  refine ⟨last.state.trans first.state, last.routing.trans first.routing,
    last.length.trans first.length, fun partition => ?_⟩
  obtain ⟨early, waits, earlySorted⟩ := first.adds partition
  obtain ⟨late, same, lateSorted⟩ := last.adds partition
  refine ⟨early ++ late, by rw [same, waits, List.append_assoc], fun item member => ?_⟩
  exact (List.mem_append.mp member).elim (earlySorted item) (lateSorted item)

theorem Adds.mono {wider : Item → Prop} (adds : Adds sort queue next)
    (wide : ∀ item, sort item → wider item) : Adds wider queue next :=
  ⟨adds.state, adds.routing, adds.length, fun partition => (adds.adds partition).imp fun _ found =>
    ⟨found.1, fun item member => wide item (found.2 item member)⟩⟩

theorem Adds.spec (adds : Adds sort queue next) (verified : ∀ item, sort item → item.Verified)
    (sound : queue.Sound) : next.Sound ∧ queue.Extends next := by
  refine ⟨⟨by rw [adds.length, adds.routing, sound.length], fun partition item member => ?_⟩,
    adds.routing, fun partition item member => ?_⟩
  · obtain ⟨added, waits, sorted⟩ := adds.adds partition
    rw [waits] at member
    rcases List.mem_append.mp member with earlier | later
    · exact sound.verified partition item earlier
    · exact verified item (sorted item later)
  · obtain ⟨added, waits, -⟩ := adds.adds partition
    rw [waits]
    exact List.mem_append_left _ member

@[simp] theorem length_append (partition : Nat) (item : Item) (pending : List (List Item)) :
    (append partition item pending).length = pending.length :=
  List.length_modify ..

theorem getD_append (partition other : Nat) (item : Item) (pending : List (List Item)) :
    (append partition item pending).getD other [] =
      if partition = other ∧ other < pending.length then pending.getD other [] ++ [item]
      else pending.getD other [] := by
  simp only [append, List.getD_eq_getElem?_getD, List.getElem?_modify]
  by_cases inside : other < pending.length
  · by_cases met : partition = other <;> simp [met, inside]
  · simp [inside]

theorem adds_append (holds : sort item)
    (pendingIs : next.pending = append partition item queue.pending)
    (state : next.state = queue.state) (routing : next.routing = queue.routing) :
    Adds sort queue next := by
  refine ⟨state, routing, by rw [pendingIs, length_append], fun other => ?_⟩
  rw [pendingFor, pendingIs, getD_append]
  split
  · exact ⟨[item], rfl, fun entry member => List.mem_singleton.mp member ▸ holds⟩
  · exact ⟨[], (List.append_nil _).symm, List.forall_mem_nil sort⟩

theorem adds_appendAll {copies : List (Nat × Item)} (holds : ∀ copy ∈ copies, sort copy.2)
    (pendingIs : next.pending =
      copies.foldl (fun pending (partition, item) => append partition item pending) queue.pending)
    (state : next.state = queue.state) (routing : next.routing = queue.routing) :
    Adds sort queue next := by
  induction copies generalizing queue with
  | nil =>
      have same : next.pending = queue.pending := pendingIs
      refine ⟨state, routing, by rw [same], fun other => ⟨[], ?_, List.forall_mem_nil sort⟩⟩
      rw [pendingFor, same, List.append_nil, pendingFor]
  | cons copy rest ih =>
      let middle := { queue with pending := append copy.1 copy.2 queue.pending }
      have first : Adds sort queue middle := adds_append (holds copy List.mem_cons_self) rfl rfl rfl
      have others : Adds sort middle next := @ih middle
        (fun later member => holds later (List.mem_cons_of_mem _ member)) pendingIs state routing
      exact first.trans others

theorem adds_push (done : queue.push item = .ok (partition, next)) :
    Adds (· = item) queue next := by
  obtain ⟨-, -, rfl⟩ := push_eq_ok_iff.mp done
  exact adds_append rfl rfl rfl rfl

theorem adds_pushPayload {hash : String} {content : Bytes} {copies : Nat}
    (done : queue.pushPayload hash content = .ok (copies, next)) :
    Adds (· = .payload hash content) queue next := by
  obtain ⟨-, -, rfl⟩ := pushPayload_eq_ok_iff.mp done
  refine adds_appendAll (fun copy member => ?_) rfl rfl rfl
  obtain ⟨partition, -, rfl⟩ := List.mem_map.mp member
  rfl

theorem push_spec (done : queue.push item = .ok (partition, next)) (sound : queue.Sound)
    (verified : item.Verified) :
    queue.routing.route item = .ok partition ∧ item ∈ next.pendingFor partition ∧
      next.Sound ∧ queue.Extends next := by
  obtain ⟨-, routed, rfl⟩ := push_eq_ok_iff.mp done
  have inside : partition < queue.pending.length := by
    rw [sound.length]
    exact Routing.route_lt routed
  refine ⟨routed, ?_, (adds_push done).spec (fun _ same => same ▸ verified) sound⟩
  rw [pendingFor, getD_append, if_pos ⟨rfl, inside⟩]
  exact List.mem_append_right _ (List.mem_singleton_self item)

theorem pushPayload_spec {hash : String} {content : Bytes} {copies : Nat}
    (done : queue.pushPayload hash content = .ok (copies, next)) (sound : queue.Sound)
    (hashed : contentHash content = hash) : next.Sound ∧ queue.Extends next :=
  (adds_pushPayload done).spec (fun _ same => same ▸ hashed) sound

theorem pushAll_spec
    (done : (items.foldlM (fun queue item => (push item queue).map (·.2)) queue :
      Except Fault BatchQueue) = .ok next)
    (sound : queue.Sound) (verified : ∀ item ∈ items, item.Verified) :
    next.Sound ∧ queue.Extends next ∧ ∀ item ∈ items, ∃ partition,
      queue.routing.route item = .ok partition ∧ item ∈ next.pendingFor partition := by
  induction items generalizing queue with
  | nil =>
      cases done
      exact ⟨sound, .refl _, fun _ member => absurd member List.not_mem_nil⟩
  | cons item rest ih =>
      simp only [List.foldlM_cons, Except.bind_eq_ok_iff, Except.map_eq_ok_iff] at done
      obtain ⟨middle, ⟨⟨partition, pushed⟩, first, rfl⟩, others⟩ := done
      obtain ⟨routed, waits, middleSound, middleExtends⟩ :=
        push_spec first sound (verified item List.mem_cons_self)
      obtain ⟨nextSound, nextExtends, placed⟩ := ih others middleSound
        fun later member => verified later (List.mem_cons_of_mem _ member)
      refine ⟨nextSound, middleExtends.trans nextExtends, fun wanted member => ?_⟩
      rcases List.mem_cons.mp member with rfl | later
      · exact ⟨partition, routed, nextExtends.keeps partition _ waits⟩
      · rw [← middleExtends.routing]
        exact placed wanted later

theorem pushPayloads_spec
    (done : (payloads.foldlM (fun queue (hash, content) =>
      (pushPayload hash content queue).map (·.2)) queue : Except Fault BatchQueue) = .ok next)
    (sound : queue.Sound) (hashed : ∀ payload ∈ payloads, contentHash payload.2 = payload.1) :
    next.Sound ∧ queue.Extends next := by
  refine Except.foldlM_invariant (fun next => next.Sound ∧ queue.Extends next) done
    (fun payload member middle next one ⟨middleSound, middleExtends⟩ => ?_) ⟨sound, .refl _⟩
  obtain ⟨_, pushed, rfl⟩ := Except.map_eq_ok_iff.mp one
  obtain ⟨nextSound, nextExtends⟩ := pushPayload_spec pushed middleSound (hashed payload member)
  exact ⟨nextSound, middleExtends.trans nextExtends⟩

/-- Every item of a batch waits for the partition it is routed to. -/
theorem fill_spec (done : queue.fill items payloads = .ok next) (sound : queue.Sound)
    (verified : ∀ item ∈ items, item.Verified)
    (hashed : ∀ payload ∈ payloads, contentHash payload.2 = payload.1) :
    next.Sound ∧ next.routing = queue.routing ∧ ∀ item ∈ items, ∃ partition,
      queue.routing.route item = .ok partition ∧ item ∈ next.pendingFor partition := by
  simp only [fill, Except.bind_eq_ok_iff] at done
  obtain ⟨middle, pushed, copied⟩ := done
  obtain ⟨middleSound, middleExtends, placed⟩ := pushAll_spec pushed sound verified
  obtain ⟨nextSound, nextExtends⟩ := pushPayloads_spec copied middleSound hashed
  refine ⟨nextSound, (middleExtends.trans nextExtends).routing, fun item member => ?_⟩
  obtain ⟨partition, routed, waits⟩ := placed item member
  exact ⟨partition, routed, nextExtends.keeps partition item waits⟩

/-- Payloads wait behind the changes, which wait as they would without any payloads. -/
theorem adds_fill (done : queue.fill items payloads = .ok next) :
    ∃ middle, queue.fill items [] = .ok middle ∧ Adds (· ∈ items) queue middle ∧
      Adds (fun item => ∃ payload ∈ payloads, item = .payload payload.1 payload.2) middle next := by
  obtain ⟨middle, pushed, copied⟩ := Except.bind_eq_ok_iff.mp done
  refine ⟨middle, Except.bind_eq_ok_iff.mpr ⟨middle, pushed, rfl⟩, ?_, ?_⟩
  · refine Except.foldlM_invariant (Adds (· ∈ items) queue) pushed
      (fun item member between next one held => ?_) (.refl queue)
    obtain ⟨_, first, rfl⟩ := Except.map_eq_ok_iff.mp one
    exact held.trans ((adds_push first).mono fun _ same => same ▸ member)
  · refine Except.foldlM_invariant (Adds _ middle) copied
      (fun payload member between next one held => ?_) (.refl middle)
    obtain ⟨_, first, rfl⟩ := Except.map_eq_ok_iff.mp one
    exact held.trans ((adds_pushPayload first).mono fun _ same => ⟨payload, member, same⟩)

/-- Every change in a queue waits for the partition it is routed to. -/
def Routed (queue : BatchQueue) : Prop :=
  ∀ partition change, .change change ∈ queue.pendingFor partition →
    queue.routing.route (.change change) = .ok partition

theorem Routed.push (routed : queue.Routed) (done : queue.push item = .ok (partition, next)) :
    next.Routed := by
  obtain ⟨-, itemRouted, rfl⟩ := push_eq_ok_iff.mp done
  intro other change member
  rw [pendingFor, getD_append] at member
  split at member
  · rename_i met
    rcases List.mem_append.mp member with earlier | added
    · exact routed other change earlier
    · rw [List.mem_singleton.mp added, ← met.1]
      exact itemRouted
  · exact routed other change member

theorem Routed.pushPayload {hash : String} {content : Bytes} {copies : Nat} (routed : queue.Routed)
    (done : queue.pushPayload hash content = .ok (copies, next)) : next.Routed := by
  have adds := adds_pushPayload done
  intro other change member
  obtain ⟨added, waits, payloads⟩ := adds.adds other
  rw [waits] at member
  rcases List.mem_append.mp member with earlier | later
  · rw [adds.routing]
    exact routed other change earlier
  · cases payloads _ later

theorem Routed.fill (routed : queue.Routed) (done : queue.fill items payloads = .ok next) :
    next.Routed := by
  obtain ⟨middle, pushed, copied⟩ := Except.bind_eq_ok_iff.mp done
  have filled : middle.Routed := by
    refine Except.foldlM_invariant Routed pushed (fun item _ queue next one held => ?_) routed
    obtain ⟨_, done, rfl⟩ := Except.map_eq_ok_iff.mp one
    exact held.push done
  refine Except.foldlM_invariant Routed copied (fun payload _ queue next one held => ?_) filled
  obtain ⟨_, done, rfl⟩ := Except.map_eq_ok_iff.mp one
  exact held.pushPayload done

/-- The deletion of a revision does not get into a queue for several partitions, so neither does its
batch. -/
theorem fill_unroutable {changes : List Change} {change : Change}
    (fills : queue.state = .filling) (several : queue.routing.partitionCount ≠ 1)
    (member : change ∈ changes) (revision : change.kind = .revisionTombstone) :
    ∃ revision, queue.fill (changes.map .change) payloads =
      .error (.unsupported (.revisionWithoutDocument revision)) := by
  suffices refused : ∃ revision, ((changes.map Item.change).foldlM
      (fun queue item => (push item queue).map (·.2)) queue : Except Fault BatchQueue) =
        .error (.unsupported (.revisionWithoutDocument revision)) by
    obtain ⟨revision, failed⟩ := refused
    exact ⟨revision, by rw [fill, failed, Except.error_bind]⟩
  induction changes generalizing queue with
  | nil => contradiction
  | cons first rest ih =>
      rw [List.map_cons, List.foldlM_cons]
      simp only [push, require, fills, if_true, Except.ok_bind]
      cases routed : queue.routing.route (.change first) with
      | error fault =>
          obtain ⟨revision, rfl⟩ := Routing.of_route_eq_error routed
          exact ⟨revision, rfl⟩
      | ok partition =>
          rcases List.mem_cons.mp member with rfl | later
          · obtain ⟨_, unroutable⟩ := Routing.route_of_revisionTombstone several revision
            rw [routed] at unroutable
            contradiction
          · exact ih rfl several later

theorem pendingFor_create (routing : Routing) (state : QueueState) (partition : Nat) :
    pendingFor { create routing with state := state } partition = [] := by
  simp only [pendingFor, create, List.getD_eq_getElem?_getD, List.getElem?_replicate]
  split <;> rfl

theorem routed_create (routing : Routing) (state : QueueState) :
    Routed { create routing with state := state } := by
  intro partition change member
  rw [pendingFor_create] at member
  contradiction

theorem sound_create (routing : Routing) : (create routing).Sound := by
  refine ⟨List.length_replicate, fun partition item member => ?_⟩
  have nothing := pendingFor_create routing .empty partition
  rw [show create routing = { create routing with state := .empty } from rfl, nothing] at member
  contradiction

theorem sound_emptied (sound : queue.Sound) (state : QueueState) (references : References) :
    Sound { queue with
      state := state, pending := queue.pending.map fun _ => [], references := references } := by
  refine ⟨by simp [sound.length], fun partition item member => ?_⟩
  simp only [pendingFor, List.getD_eq_getElem?_getD, List.getElem?_map] at member
  cases found : queue.pending[partition]? <;> simp [found] at member

theorem sound_abort (sound : queue.Sound) : queue.abort.Sound :=
  sound_emptied sound _ _

theorem begin_spec (done : queue.begin = .ok next) (sound : queue.Sound) :
    next.Sound ∧ next.routing = queue.routing := by
  obtain ⟨-, rfl⟩ := begin_eq_ok_iff.mp done
  exact ⟨⟨sound.length, sound.verified⟩, rfl⟩

theorem finish_spec (done : queue.finish = .ok next) (sound : queue.Sound) :
    next.Sound ∧ next.routing = queue.routing := by
  obtain ⟨-, rfl⟩ := finish_eq_ok_iff.mp done
  exact ⟨sound_abort sound, rfl⟩

/-- One slice for each of so many partitions. -/
def slicesFor (count : Nat) (items : Nat → List Item) : List PartitionSlice :=
  (List.range count).map fun partition => ⟨partition, items partition⟩

theorem handOut_eq (done : queue.handOut = .ok (slices, next)) :
    slices = slicesFor queue.pending.length queue.pendingFor := by
  obtain ⟨-, rfl, rfl⟩ := handOut_eq_ok_iff.mp done
  refine List.ext_getElem (by simp [slicesFor]) fun index inside _ => ?_
  have within : index < queue.pending.length := by simpa using inside
  simp [slicesFor, pendingFor, within]

/-- Each partition gets one slice, with all that waited for it. -/
theorem handOut_spec (done : queue.handOut = .ok (slices, next)) (sound : queue.Sound) :
    (slices.map (·.partition) = List.range queue.routing.partitionCount ∧
      ∀ slice ∈ slices, slice.items = queue.pendingFor slice.partition) ∧
    next.Sound ∧ next.routing = queue.routing := by
  obtain ⟨-, rfl, rfl⟩ := handOut_eq_ok_iff.mp done
  refine ⟨⟨?_, fun slice member => ?_⟩, sound_emptied sound _ _, rfl⟩
  · rw [← sound.length, List.map_map, List.range_eq_range']
    exact List.zipIdx_map_snd 0 queue.pending
  · obtain ⟨⟨items, index⟩, listed, rfl⟩ := List.mem_map.mp member
    have found := List.mem_zipIdx_iff_getElem?.mp listed
    simp only [pendingFor, List.getD_eq_getElem?_getD, found, Option.getD_some]

end BatchQueue

end DocumentReplication
