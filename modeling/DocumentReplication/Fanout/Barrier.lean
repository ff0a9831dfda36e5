import DocumentReplication.Commit.Slice

/-!
The barrier behind a sealed batch: it is passed once every partition has reported on its slice, in
whatever order the reports come in. A slice that is dropped unreported counts as a fault.
-/

namespace DocumentReplication

structure Barrier where
  expected : Nat
  reports : Dictionary Nat (Except Fault SliceOutcome)

namespace Barrier

def arm (expected : Nat) : Barrier := ⟨expected, .empty⟩

def awaits (barrier : Barrier) (partition : Nat) : Bool :=
  partition < barrier.expected && !barrier.reports.contains partition

def outstanding (barrier : Barrier) : List Nat :=
  (List.range barrier.expected).filter barrier.awaits

/-- Only the first report of a partition counts. -/
def report (partition : Nat) (outcome : Except Fault SliceOutcome) (barrier : Barrier) : Barrier :=
  if barrier.awaits partition then
    { barrier with reports := barrier.reports.insert partition outcome }
  else barrier

def drop (partition : Nat) (barrier : Barrier) : Barrier :=
  barrier.report partition (.error (.internal (.sliceDropped partition)))

def outcomeOf (barrier : Barrier) (partition : Nat) : Except Fault SliceOutcome :=
  (barrier.reports.get? partition).getD (.error (.internal (.sliceDropped partition)))

/-- The outcomes in the order of the partitions, if nothing more is reported. -/
def outcomes (barrier : Barrier) : List (Nat × Except Fault SliceOutcome) :=
  (List.range barrier.expected).map fun partition => (partition, barrier.outcomeOf partition)

def isPassed (barrier : Barrier) : Bool := barrier.outstanding.isEmpty

end Barrier

end DocumentReplication
