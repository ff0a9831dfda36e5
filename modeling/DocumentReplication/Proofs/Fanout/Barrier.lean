import DocumentReplication.Fanout.Channel
import DocumentReplication.Proofs.Fanout.Workers

/-!
What a barrier answers, whenever the reports come in. It is passed once every token has sent its report,
and then there is one outcome for each partition, in the order of the partitions; so what becomes of the
batch is a matter of what the partitions report, not of when they do.
-/

namespace DocumentReplication

variable {count partition : Nat} {event : BarrierEvent} {events : List BarrierEvent}
  {outcome : Except Fault SliceOutcome} {outcomes : List (Nat × Except Fault SliceOutcome)}

namespace BarrierEvent

/-- What a token sends when this happens to it. -/
def report? : BarrierEvent → Option (Nat × Except Fault SliceOutcome)
  | complete partition outcome => some (partition, outcome)
  | drop partition => some (partition, .error (.internal (.sliceDropped partition)))
  | receive => none

/-- The report of a partition: a token sends one, the first time that something happens to it. -/
def reportIn (partition : Nat) (events : List BarrierEvent) : Option (Except Fault SliceOutcome) :=
  events.findSome? fun event => event.report?.bind fun (reporter, outcome) =>
    if reporter = partition then some outcome else none

theorem reportIn_append_report (sends : event.report? = some (partition, outcome))
    (events : List BarrierEvent) (other : Nat) :
    reportIn other (events ++ [event]) =
      (reportIn other events).or (if partition = other then some outcome else none) := by
  rw [reportIn, List.findSome?_append, List.findSome?_singleton, sends]
  rfl

theorem reportIn_append_none (silent : event.report? = none) (events : List BarrierEvent)
    (partition : Nat) : reportIn partition (events ++ [event]) = reportIn partition events := by
  rw [reportIn, List.findSome?_append, List.findSome?_singleton, silent]
  exact Option.or_none

/-- What holds of a state and the events so far, if each event keeps it. -/
theorem holds_foldl {σ : Type} (observe : σ → BarrierEvent → σ)
    (holds : List BarrierEvent → σ → Prop)
    (keeps : ∀ events state event, holds events state →
      holds (events ++ [event]) (observe state event))
    {state : σ} (held : holds events state) (more : List BarrierEvent) :
    holds (events ++ more) (more.foldl observe state) := by
  induction more generalizing events state with
  | nil => exact (List.append_nil events).symm ▸ held
  | cons event rest ih =>
      have last := ih (keeps events state event held)
      rw [List.append_assoc, List.singleton_append] at last
      exact last

end BarrierEvent

open BarrierEvent

namespace ReportChannel

variable {channel : ReportChannel}

theorem observe_of_report (sends : event.report? = some (partition, outcome)) :
    channel.observe event = channel.spend partition outcome := by
  cases event <;> cases sends <;> rfl

theorem observe_of_silent (silent : event.report? = none) :
    channel.observe event = channel.receive := by
  cases event <;> first | rfl | cases silent

/-- A channel after some events: every partition either holds its token or has its report on the way
or gathered. -/
structure Tracks (count : Nat) (events : List BarrierEvent) (channel : ReportChannel) : Prop where
  expected : channel.expected = count
  reporters : (channel.held ++ (channel.gathered ++ channel.inFlight).map (·.1)).Perm
    (List.range count)
  reported : ∀ report ∈ channel.gathered ++ channel.inFlight,
    reportIn report.1 events = some report.2
  unreported : ∀ partition ∈ channel.held, reportIn partition events = none
  live : channel.closed = false

theorem tracks_arm (count : Nat) : Tracks count [] (arm count) := by
  refine ⟨rfl, ?_, nofun, fun _ _ => rfl, rfl⟩
  simp [arm]

namespace Tracks

theorem length (tracks : Tracks count events channel) :
    channel.held.length + (channel.gathered.length + channel.inFlight.length) = count := by
  simpa using tracks.reporters.length_eq

theorem distinct (tracks : Tracks count events channel) :
    (channel.held ++ (channel.gathered ++ channel.inFlight).map (·.1)).Nodup :=
  tracks.reporters.nodup_iff.mpr List.nodup_range

/-- There is room for a report as long as its token is there. -/
theorem spend_eq (tracks : Tracks count events channel) (held : partition ∈ channel.held)
    (outcome : Except Fault SliceOutcome) :
    channel.spend partition outcome = { channel with
      held := channel.held.erase partition
      inFlight := channel.inFlight ++ [(partition, outcome)] } := by
  have some : 0 < channel.held.length := List.length_pos_of_mem held
  have room : channel.inFlight.length < max channel.expected 1 := by
    have total := tracks.length
    have same := tracks.expected
    omega
  rw [spend, if_pos held, send, capacity]
  simp only [if_pos room]

theorem spend (tracks : Tracks count events channel)
    (sends : event.report? = some (partition, outcome)) :
    Tracks count (events ++ [event]) (channel.spend partition outcome) := by
  by_cases held : partition ∈ channel.held
  · have before := tracks.unreported partition held
    rw [tracks.spend_eq held]
    refine ⟨tracks.expected, ?_, fun report member => ?_, fun other member => ?_, tracks.live⟩
    · refine List.Perm.trans ?_ tracks.reporters
      have moved := (List.perm_cons_erase held).symm.append_right
        ((channel.gathered ++ channel.inFlight).map (·.1))
      refine List.Perm.trans ?_ moved
      simp only [← List.append_assoc, List.map_append, List.map_cons, List.map_nil]
      exact List.perm_append_singleton _ _
    · rw [← List.append_assoc, List.mem_append, List.mem_singleton] at member
      rw [reportIn_append_report sends]
      rcases member with earlier | rfl
      · rw [tracks.reported report earlier, Option.some_or]
      · rw [before, if_pos rfl, Option.none_or]
    · have distinct := (List.nodup_append.mp tracks.distinct).1
      obtain ⟨apart, member⟩ := distinct.mem_erase_iff.mp member
      rw [reportIn_append_report sends, tracks.unreported other member, if_neg (Ne.symm apart),
        Option.none_or]
  · rw [ReportChannel.spend, if_neg held]
    refine ⟨tracks.expected, tracks.reporters, fun report member => ?_, fun other member => ?_,
      tracks.live⟩
    · rw [reportIn_append_report sends, tracks.reported report member, Option.some_or]
    · have apart : partition ≠ other := fun same => held (same ▸ member)
      rw [reportIn_append_report sends, tracks.unreported other member, if_neg apart,
        Option.none_or]

/-- A look at the channel moves a report, or changes nothing: it is never found closed too early. -/
theorem receive (tracks : Tracks count events channel) : Tracks count events channel.receive := by
  unfold ReportChannel.receive
  split
  · exact tracks
  · rename_i waiting
    split
    · rename_i report rest sent
      have same : channel.gathered ++ [report] ++ rest = channel.gathered ++ channel.inFlight := by
        rw [sent, List.append_assoc, List.singleton_append]
      refine ⟨tracks.expected, ?_, ?_, tracks.unreported, tracks.live⟩
      · simp only [same]
        exact tracks.reporters
      · simp only [same]
        exact tracks.reported
    · rename_i nothing
      have left : channel.held.isEmpty = false := by
        have total := tracks.length
        rw [nothing, List.length_nil] at total
        rw [tracks.expected] at waiting
        rw [List.isEmpty_eq_false_iff, ← List.length_pos_iff]
        omega
      exact ⟨tracks.expected, tracks.reporters, tracks.reported, tracks.unreported, left⟩

theorem observe (tracks : Tracks count events channel) (event : BarrierEvent) :
    Tracks count (events ++ [event]) (channel.observe event) := by
  cases sends : event.report? with
  | some report =>
      rw [observe_of_report sends]
      exact tracks.spend sends
  | none =>
      obtain ⟨expected, reporters, reported, unreported, live⟩ := tracks.receive
      rw [observe_of_silent sends]
      refine ⟨expected, reporters, fun report member => ?_, fun partition member => ?_, live⟩
      · rw [reportIn_append_none sends, reported report member]
      · rw [reportIn_append_none sends, unreported partition member]

theorem after (tracks : Tracks count events channel) (more : List BarrierEvent) :
    Tracks count (events ++ more) (channel.after more) :=
  holds_foldl ReportChannel.observe (Tracks count)
    (fun _ _ event earlier => earlier.observe event) tracks more

end Tracks

end ReportChannel

/-- One outcome for each of so many partitions, in their order. -/
def SliceOutcome.inOrder (count : Nat) (result : Nat → Except Fault SliceOutcome) :
    List (Nat × Except Fault SliceOutcome) :=
  (List.range count).map fun partition => (partition, result partition)

open SliceOutcome

theorem mem_inOrder_iff {result : Nat → Except Fault SliceOutcome}
    {report : Nat × Except Fault SliceOutcome} :
    report ∈ inOrder count result ↔ report.1 < count ∧ report.2 = result report.1 := by
  obtain ⟨partition, outcome⟩ := report
  simp only [inOrder, List.mem_map, List.mem_range, Prod.mk.injEq]
  constructor
  · rintro ⟨_, inside, rfl, rfl⟩
    exact ⟨inside, rfl⟩
  · rintro ⟨inside, rfl⟩
    exact ⟨partition, inside, rfl, rfl⟩

namespace ReportChannel

theorem precedes_iff {one other : Nat × Except Fault SliceOutcome} :
    precedes one other = true ↔ one.1 ≤ other.1 :=
  decide_eq_true_iff

theorem pairwise_precedes (outcomes : List (Nat × Except Fault SliceOutcome)) :
    (outcomes.mergeSort precedes).Pairwise fun one other => precedes one other = true := by
  refine List.pairwise_mergeSort (fun one two three first last => ?_) (fun one other => ?_) outcomes
  · rw [precedes_iff] at first last ⊢
    exact Nat.le_trans first last
  · rw [Bool.or_eq_true, precedes_iff, precedes_iff]
    exact Nat.le_total one.1 other.1

/-- Whatever order the outcomes came in, sorting them puts them in the order of the partitions. -/
theorem mergeSort_eq_inOrder {result : Nat → Except Fault SliceOutcome}
    (gathered : outcomes.Perm (inOrder count result)) :
    outcomes.mergeSort precedes = inOrder count result := by
  have ordered : (inOrder count result).Pairwise fun one other => precedes one other = true :=
    List.pairwise_map.mpr (List.pairwise_lt_range.imp fun below =>
      precedes_iff.mpr (Nat.le_of_lt below))
  have same := (List.mergeSort_perm outcomes precedes).trans gathered
  refine List.Perm.eq_of_pairwise (fun one other first last below above => ?_)
    (pairwise_precedes outcomes) ordered same
  obtain ⟨-, one⟩ := mem_inOrder_iff.mp (same.mem_iff.mp first)
  obtain ⟨-, other⟩ := mem_inOrder_iff.mp last
  have met := Nat.le_antisymm (precedes_iff.mp below) (precedes_iff.mp above)
  exact Prod.ext met (by rw [one, other, met])

variable {channel : ReportChannel}

namespace Tracks

theorem resolved?_eq (tracks : Tracks count events channel) :
    channel.resolved? = if count ≤ channel.gathered.length then
      some (channel.gathered.mergeSort precedes) else none := by
  simp only [resolved?, tracks.live, Bool.false_eq_true, or_false, tracks.expected]

theorem exists_report (tracks : Tracks count events channel) (spent : channel.held = [])
    (inside : partition < count) : ∃ outcome, reportIn partition events = some outcome := by
  have member := tracks.reporters.mem_iff.mpr (List.mem_range.mpr inside)
  rw [spent, List.nil_append] at member
  obtain ⟨report, listed, rfl⟩ := List.mem_map.mp member
  exact ⟨report.2, tracks.reported report listed⟩

/-- Whoever waits has an answer only once every partition has reported, and then the answer is what
they reported. -/
theorem of_resolved (tracks : Tracks count events channel)
    (resolved : channel.resolved? = some outcomes) :
    (∀ partition < count, ∃ outcome, reportIn partition events = some outcome) ∧
      ∀ result, (∀ partition < count, reportIn partition events = some (result partition)) →
        outcomes = inOrder count result := by
  rw [tracks.resolved?_eq] at resolved
  split at resolved
  case isFalse => contradiction
  case isTrue enough =>
    cases resolved
    have total := tracks.length
    have spent : channel.held = [] := List.length_eq_zero_iff.mp (by omega)
    have arrived : channel.inFlight = [] := List.length_eq_zero_iff.mp (by omega)
    refine ⟨fun partition => tracks.exists_report spent, fun result reports => ?_⟩
    have reporters := tracks.reporters
    have reported := tracks.reported
    rw [spent, arrived, List.nil_append, List.append_nil] at reporters
    rw [arrived, List.append_nil] at reported
    have each : channel.gathered = (channel.gathered.map (·.1)).map fun partition =>
        (partition, result partition) := by
      rw [List.map_map]
      refine ((List.map_congr_left fun report member => ?_).trans (List.map_id _)).symm
      have inside := reporters.mem_iff.mp (List.mem_map_of_mem member)
      have same := (reports report.1 (List.mem_range.mp inside)).symm.trans (reported report member)
      exact Prod.ext rfl (Option.some.inj same)
    refine mergeSort_eq_inOrder ?_
    rw [each]
    exact reporters.map _

theorem spent (tracks : Tracks count events channel)
    (all : ∀ partition < count, ∃ outcome, reportIn partition events = some outcome) :
    channel.held = [] := by
  refine List.eq_nil_iff_forall_not_mem.mpr fun partition held => ?_
  have inside := List.mem_range.mp (tracks.reporters.mem_iff.mp (List.mem_append_left _ held))
  obtain ⟨outcome, reported⟩ := all partition inside
  rw [tracks.unreported partition held] at reported
  contradiction

theorem receive_of_spent (tracks : Tracks count events channel) (spent : channel.held = []) :
    channel.receive.held = [] ∧
      channel.receive.inFlight.length ≤ channel.inFlight.length - 1 := by
  have total := tracks.length
  rw [spent, List.length_nil] at total
  unfold ReportChannel.receive
  split
  · rename_i enough
    rw [tracks.expected] at enough
    exact ⟨spent, by omega⟩
  · split
    · rename_i report rest sent
      exact ⟨spent, by simp [sent]⟩
    · rename_i nothing
      exact ⟨spent, by simp [nothing]⟩

/-- Without a token left each look takes a report, until there are enough. -/
theorem resolves {looks : Nat} (tracks : Tracks count events channel) (spent : channel.held = [])
    (enough : channel.inFlight.length ≤ looks) :
    ∃ outcomes, (channel.after (List.replicate looks .receive)).resolved? = some outcomes := by
  induction looks generalizing events channel with
  | zero =>
      have total := tracks.length
      rw [spent, List.length_nil] at total
      refine ⟨_, tracks.resolved?_eq.trans (if_pos ?_)⟩
      omega
  | succ looks ih =>
      obtain ⟨stillSpent, fewer⟩ := tracks.receive_of_spent spent
      exact ih (tracks.observe .receive) stillSpent (Nat.le_trans fewer (by omega))

end Tracks

end ReportChannel

namespace Barrier

variable {barrier : Barrier}

/-- A barrier after some events: it has the report of every partition that sent one. -/
structure Notes (count : Nat) (events : List BarrierEvent) (barrier : Barrier) : Prop where
  expected : barrier.expected = count
  notes : ∀ partition < count, barrier.reports.get? partition = reportIn partition events

theorem notes_arm (count : Nat) : Notes count [] (arm count) := ⟨rfl, fun _ _ => rfl⟩

theorem Notes.report (notes : Notes count events barrier)
    (sends : event.report? = some (partition, outcome)) :
    Notes count (events ++ [event]) (barrier.report partition outcome) := by
  refine ⟨(expected_report ..).trans notes.expected, fun other inside => ?_⟩
  have before := notes.notes other inside
  rw [get?_report, reportIn_append_report sends, before]
  by_cases met : partition = other
  · subst met
    cases earlier : reportIn partition events with
    | none => simp [awaits, notes.expected, inside, Dictionary.contains, before, earlier]
    | some report => simp [awaits, Dictionary.contains, before, earlier]
  · simp [met]

theorem Notes.observe (notes : Notes count events barrier) (event : BarrierEvent) :
    Notes count (events ++ [event]) (barrier.observe event) := by
  cases event with
  | complete partition outcome => exact notes.report rfl
  | drop partition => exact notes.report rfl
  | receive =>
      refine ⟨notes.expected, fun partition inside => ?_⟩
      rw [reportIn_append_none rfl]
      exact notes.notes partition inside

theorem Notes.after (notes : Notes count events barrier) (more : List BarrierEvent) :
    Notes count (events ++ more) (barrier.after more) :=
  holds_foldl Barrier.observe (Notes count) (fun _ _ event earlier => earlier.observe event) notes more

theorem Notes.isPassed_iff (notes : Notes count events barrier) :
    barrier.isPassed = true ↔
      ∀ partition < count, ∃ outcome, reportIn partition events = some outcome := by
  simp only [isPassed, outstanding, List.isEmpty_iff, List.filter_eq_nil_iff, List.mem_range,
    notes.expected]
  refine forall₂_congr fun partition inside => ?_
  simp [awaits, notes.expected, inside, Dictionary.contains, notes.notes partition inside,
    Option.ne_none_iff_exists']

theorem Notes.outcomes_eq {result : Nat → Except Fault SliceOutcome}
    (notes : Notes count events barrier)
    (reports : ∀ partition < count, reportIn partition events = some (result partition)) :
    barrier.outcomes = inOrder count result := by
  rw [Barrier.outcomes, notes.expected]
  refine List.map_congr_left fun partition member => ?_
  have inside := List.mem_range.mp member
  rw [outcomeOf, notes.notes partition inside, reports partition inside, Option.getD_some]

end Barrier

/-- What the slices of the partitions below a number come to together. -/
def SliceOutcome.sumBelow (part : Nat → SliceOutcome) : Nat → SliceOutcome
  | 0 => ⟨0, 0⟩
  | count + 1 =>
    let lower := sumBelow part count
    ⟨lower.applied + (part count).applied, lower.skipped + (part count).skipped⟩

namespace BatchOutcome

variable {result : Nat → Except Fault SliceOutcome} {fault : Fault} {wanted : Fault → Bool}

/-- What the outcomes of the partitions come to. -/
inductive Decides (count : Nat) (result : Nat → Except Fault SliceOutcome) :
    Except Fault BatchOutcome → Prop
  /-- The lowest partition that failed for anything but a missing attachment. -/
  | fails {partition : Nat} {fault : Fault} : partition < count →
    result partition = .error fault →
    (∀ hash documentId, fault ≠ .missingAttachment hash documentId) →
    (∀ lower < partition, ∀ other, result lower = .error other →
      ∃ hash documentId, other = .missingAttachment hash documentId) →
    Decides count result (.error fault)
  /-- The lowest partition that misses an attachment, where all that failed do. -/
  | misses {partition : Nat} {hash documentId : String} : partition < count →
    result partition = .error (.missingAttachment hash documentId) →
    (∀ lower < partition, ∃ part, result lower = .ok part) →
    (∀ other < count, ∀ fault, result other = .error fault →
      ∃ hash documentId, fault = .missingAttachment hash documentId) →
    Decides count result (.ok (.attachmentsMissing (.missingAttachment hash documentId)))
  | applies {part : Nat → SliceOutcome} :
    (∀ partition < count, result partition = .ok (part partition)) →
    Decides count result (.ok (.applied (SliceOutcome.sumBelow part count)))

theorem mem_faults_inOrder_iff :
    fault ∈ faults (inOrder count result) ↔ ∃ partition < count, result partition = .error fault := by
  simp only [faults, List.mem_filterMap]
  constructor
  · rintro ⟨⟨partition, outcome⟩, listed, found⟩
    obtain ⟨inside, same⟩ := mem_inOrder_iff.mp listed
    simp only at inside same found
    subst same
    refine ⟨partition, inside, ?_⟩
    cases failed : result partition with
    | ok part => simp [failed] at found
    | error reason => simpa [failed] using found
  · rintro ⟨partition, inside, failed⟩
    exact ⟨(partition, result partition), mem_inOrder_iff.mpr ⟨inside, rfl⟩, by simp only [failed]⟩

/-- The first fault of some sort is that of the lowest partition with such a fault. -/
theorem of_find?_faults (found : (faults (inOrder count result)).find? wanted = some fault) :
    ∃ partition < count, result partition = .error fault ∧ wanted fault = true ∧
      ∀ lower < partition, ∀ other, result lower = .error other → wanted other = false := by
  rw [faults, inOrder, List.filterMap_map, List.find?_filterMap, Option.bind_eq_some_iff] at found
  obtain ⟨partition, first, failed⟩ := found
  obtain ⟨met, inside, others⟩ := List.find?_range_eq_some.mp first
  refine ⟨partition, List.mem_range.mp inside, ?_⟩
  simp only [Function.comp_apply] at failed met others
  cases outcome : result partition with
  | ok part => simp [outcome] at failed
  | error reason =>
      simp only [outcome, Option.some.injEq, Option.any_some] at failed met
      subst failed
      refine ⟨rfl, met, fun lower below other lost => ?_⟩
      simpa [lost] using others lower below

theorem total_inOrder {part : Nat → SliceOutcome}
    (parts : ∀ partition < count, result partition = .ok (part partition)) :
    total (inOrder count result) = SliceOutcome.sumBelow part count := by
  induction count with
  | zero => rfl
  | succ count ih =>
      have before := ih fun partition inside => parts partition (Nat.lt_succ_of_lt inside)
      rw [total, inOrder, List.range_succ, List.map_append, List.foldl_append]
      rw [total, inOrder] at before
      simp only [before, List.map_cons, List.map_nil, List.foldl_cons, List.foldl_nil,
        parts count (Nat.lt_succ_self count), SliceOutcome.sumBelow]

/-- Where no fault ends the connection, every fault is a missing attachment. -/
theorem missing_of_staying (staying : (faults (inOrder count result)).find? (·.endsConnection) = none)
    (inside : partition < count) (failed : result partition = .error fault) :
    ∃ hash documentId, fault = .missingAttachment hash documentId := by
  have listed := mem_faults_inOrder_iff.mpr ⟨partition, inside, failed⟩
  have stays := List.find?_eq_none.mp staying fault listed
  exact Fault.endsConnection_eq_false_iff.mp (Bool.eq_false_iff.mpr stays)

theorem exists_parts (nothing : faults (inOrder count result) = []) :
    ∃ part : Nat → SliceOutcome,
      ∀ partition < count, result partition = .ok (part partition) := by
  refine ⟨fun partition => (result partition).toOption.getD ⟨0, 0⟩, fun partition inside => ?_⟩
  cases lost : result partition with
  | ok part => simp only [lost, Except.toOption, Option.getD_some]
  | error fault =>
      have member := mem_faults_inOrder_iff.mpr ⟨partition, inside, lost⟩
      rw [nothing] at member
      contradiction

theorem decides_ofOutcomes (count : Nat) (result : Nat → Except Fault SliceOutcome) :
    Decides count result (ofOutcomes (inOrder count result)) := by
  cases ending : (faults (inOrder count result)).find? (·.endsConnection) with
  | some fault =>
      obtain ⟨partition, inside, failed, ends, others⟩ := of_find?_faults ending
      rw [ofOutcomes_of_find? ending]
      refine .fails inside failed (fun hash documentId same => ?_) fun lower below other lost =>
        Fault.endsConnection_eq_false_iff.mp (others lower below other lost)
      rw [Fault.endsConnection_eq_false_iff.mpr ⟨hash, documentId, same⟩] at ends
      contradiction
  | none =>
      cases listed : faults (inOrder count result) with
      | cons fault rest =>
          have first : (faults (inOrder count result)).find? (fun _ => true) = some fault := by
            rw [listed]
            rfl
          obtain ⟨partition, inside, failed, -, others⟩ := of_find?_faults first
          rw [ofOutcomes_of_cons ending listed]
          obtain ⟨hash, documentId, rfl⟩ := missing_of_staying ending inside failed
          refine .misses inside failed (fun lower below => ?_) fun other within fault =>
            missing_of_staying ending within
          cases lost : result lower with
          | ok part => exact ⟨part, rfl⟩
          | error other => cases others lower below other lost
      | nil =>
          obtain ⟨part, parts⟩ := exists_parts listed
          rw [ofOutcomes_of_nil listed, total_inOrder parts]
          exact .applies parts

end BatchOutcome

theorem exists_results
    (all : ∀ partition < count, ∃ outcome, reportIn partition events = some outcome) :
    ∃ result : Nat → Except Fault SliceOutcome,
      ∀ partition < count, reportIn partition events = some (result partition) := by
  refine ⟨fun partition => (reportIn partition events).getD (.ok ⟨0, 0⟩), fun partition inside => ?_⟩
  obtain ⟨outcome, reported⟩ := all partition inside
  simp only [reported, Option.getD_some]

namespace Workers

variable {source : String} {lastEtag : Int64} {workers : Workers} {slices : List PartitionSlice}

/-- The slices of all partitions come to what each comes to by itself, in any order. -/
theorem outcomes_dispatch {barrier : Barrier} (expected : barrier.expected = count)
    (partitions : (slices.map (·.partition)).Perm (List.range count))
    (reports : ∀ slice ∈ slices,
      barrier.outcomeOf slice.partition = (workers.apply source lastEtag slice).1) :
    (dispatch source lastEtag slices (.arm count) workers).1.outcomes = barrier.outcomes := by
  rw [Barrier.outcomes, Barrier.outcomes, expected_dispatch, expected]
  refine List.map_congr_left fun partition listed => ?_
  obtain ⟨slice, member, rfl⟩ := List.mem_map.mp (partitions.mem_iff.mpr listed)
  obtain ⟨reported, -⟩ := dispatch_at_arm source lastEtag workers partitions member
  rw [reports slice member, Barrier.outcomeOf, reported, Option.getD_some]

end Workers

namespace Barrier

/-- Whatever order the tokens are used or dropped in, whoever waits has an answer only once every
partition has reported, and soon after. It is one outcome for each partition, in their order, and they
alone decide what becomes of the batch. Nor does the order matter in which the slices are applied. -/
theorem timing_immaterial (count : Nat) (events : List BarrierEvent) :
    (∀ outcomes, ((ReportChannel.arm count).after events).resolved? = some outcomes →
      ((arm count).after events).isPassed = true ∧ ((arm count).after events).outcomes = outcomes ∧
        ∃ result, (∀ partition < count, reportIn partition events = some (result partition)) ∧
          outcomes = inOrder count result ∧
          BatchOutcome.Decides count result (BatchOutcome.ofOutcomes outcomes)) ∧
    ((∀ partition < count, ∃ outcome, reportIn partition events = some outcome) →
      ∃ outcomes, ((ReportChannel.arm count).after
        (events ++ List.replicate count .receive)).resolved? = some outcomes) ∧
    ∀ source lastEtag (workers : Workers) (slices order : List PartitionSlice),
      slices.map (·.partition) = List.range count → order.Perm slices →
        (workers.dispatch source lastEtag order (arm count)).1.outcomes =
            (workers.dispatch source lastEtag slices (arm count)).1.outcomes ∧
          ((∀ slice ∈ slices,
              reportIn slice.partition events = some (workers.apply source lastEtag slice).1) →
            ((arm count).after events).outcomes =
              (workers.dispatch source lastEtag slices (arm count)).1.outcomes) := by
  have tracks := (ReportChannel.tracks_arm count).after events
  have notes := (notes_arm count).after events
  rw [List.nil_append] at tracks notes
  refine ⟨fun outcomes resolved => ?_, fun all => ?_,
    fun source lastEtag workers slices order partitions same => ⟨?_, fun reports => ?_⟩⟩
  · obtain ⟨all, answer⟩ := tracks.of_resolved resolved
    obtain ⟨result, reports⟩ := exists_results all
    obtain rfl := answer result reports
    exact ⟨notes.isPassed_iff.mpr all, notes.outcomes_eq reports, result, reports, rfl,
      BatchOutcome.decides_ofOutcomes count result⟩
  · have total := tracks.length
    rw [ReportChannel.after, List.foldl_append]
    exact tracks.resolves (tracks.spent all) (by omega)
  · have ordered := (same.map (·.partition)).trans (List.Perm.of_eq partitions)
    refine Workers.outcomes_dispatch (Workers.expected_dispatch ..) ordered fun slice member => ?_
    obtain ⟨reported, -⟩ := Workers.dispatch_at_arm source lastEtag workers
      (List.Perm.of_eq partitions) (same.mem_iff.mp member)
    rw [outcomeOf, reported, Option.getD_some]
  · refine (Workers.outcomes_dispatch notes.expected (List.Perm.of_eq partitions)
      fun slice member => ?_).symm
    have inside : slice.partition < count := by
      rw [← List.mem_range, ← partitions]
      exact List.mem_map_of_mem member
    rw [outcomeOf, notes.notes _ inside, reports slice member, Option.getD_some]

/-- Two partitions report, the last one first, and the one between drops its slice. -/
def lateReports : List BarrierEvent :=
  [.complete 2 (.error (.missingAttachment "hash" "users/2")), .receive, .receive, .drop 1,
    .complete 0 (.ok ⟨0, 0⟩)]

/-- Two partitions with nothing to do. -/
def idleSlices : List PartitionSlice := [⟨0, []⟩, ⟨1, []⟩]

theorem timing_immaterial_lateReports :
    (∃ outcomes result, ((ReportChannel.arm 3).after
        (lateReports ++ List.replicate 3 .receive)).resolved? = some outcomes ∧
      BatchOutcome.Decides 3 result (BatchOutcome.ofOutcomes outcomes)) ∧
    ∀ workers : Workers, (workers.dispatch "A" 5 idleSlices.reverse (arm 2)).1.outcomes =
      (workers.dispatch "A" 5 idleSlices (arm 2)).1.outcomes := by
  have all : ∀ partition < 3, ∃ outcome, reportIn partition lateReports = some outcome := by
    intro partition inside
    match partition with
    | 0 | 1 | 2 => exact ⟨_, rfl⟩
  obtain ⟨-, resolves, -⟩ := timing_immaterial 3 lateReports
  obtain ⟨outcomes, resolved⟩ := resolves all
  obtain ⟨answers, -⟩ := timing_immaterial 3 (lateReports ++ List.replicate 3 .receive)
  obtain ⟨-, -, result, -, -, decides⟩ := answers outcomes resolved
  refine ⟨⟨outcomes, result, resolved, decides⟩, fun workers => ?_⟩
  obtain ⟨-, -, applied⟩ := timing_immaterial 2 []
  exact (applied "A" 5 workers idleSlices idleSlices.reverse rfl (List.reverse_perm _)).1

end Barrier

end DocumentReplication
