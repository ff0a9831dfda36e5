import DocumentReplication.Fanout.Barrier

/-!
The channel behind a barrier. Every partition holds a token, which sends one report and is gone; whoever
waits for the batch takes the reports off the channel in the order they were sent in, and puts them in
order when there is one for each partition.

`Barrier` is what comes of it in the end.
-/

namespace DocumentReplication

/-- What can happen next, in any order. -/
inductive BarrierEvent where
  | complete (partition : Nat) (outcome : Except Fault SliceOutcome)
  | drop (partition : Nat)
  /-- Whoever waits has a look at the channel. -/
  | receive

structure ReportChannel where
  expected : Nat
  /-- The partitions whose tokens are there still. -/
  held : List Nat
  inFlight : List (Nat × Except Fault SliceOutcome)
  gathered : List (Nat × Except Fault SliceOutcome)
  /-- Nobody is left who could send. -/
  closed : Bool

namespace ReportChannel

def arm (expected : Nat) : ReportChannel := ⟨expected, List.range expected, [], [], false⟩

def capacity (channel : ReportChannel) : Nat := max channel.expected 1

/-- A report for which there is no room is lost. -/
def send (partition : Nat) (outcome : Except Fault SliceOutcome) (channel : ReportChannel) :
    ReportChannel :=
  if channel.inFlight.length < channel.capacity then
    { channel with inFlight := channel.inFlight ++ [(partition, outcome)] }
  else channel

/-- A token is used up by its report. -/
def spend (partition : Nat) (outcome : Except Fault SliceOutcome) (channel : ReportChannel) :
    ReportChannel :=
  if partition ∈ channel.held then
    { channel with held := channel.held.erase partition }.send partition outcome
  else channel

def receive (channel : ReportChannel) : ReportChannel :=
  if channel.expected ≤ channel.gathered.length then channel
  else match channel.inFlight with
    | report :: rest => { channel with inFlight := rest, gathered := channel.gathered ++ [report] }
    | [] => { channel with closed := channel.held.isEmpty }

def observe (channel : ReportChannel) : BarrierEvent → ReportChannel
  | .complete partition outcome => channel.spend partition outcome
  | .drop partition => channel.spend partition (.error (.internal (.sliceDropped partition)))
  | .receive => channel.receive

def after (events : List BarrierEvent) (channel : ReportChannel) : ReportChannel :=
  events.foldl observe channel

def precedes (one other : Nat × Except Fault SliceOutcome) : Bool := one.1 ≤ other.1

/-- The outcomes, as soon as whoever waits has enough of them or can expect no more. -/
def resolved? (channel : ReportChannel) : Option (List (Nat × Except Fault SliceOutcome)) :=
  if channel.expected ≤ channel.gathered.length ∨ channel.closed then
    some (channel.gathered.mergeSort precedes)
  else none

end ReportChannel

namespace Barrier

def observe (barrier : Barrier) : BarrierEvent → Barrier
  | .complete partition outcome => barrier.report partition outcome
  | .drop partition => barrier.drop partition
  | .receive => barrier

def after (events : List BarrierEvent) (barrier : Barrier) : Barrier :=
  events.foldl observe barrier

end Barrier

end DocumentReplication
