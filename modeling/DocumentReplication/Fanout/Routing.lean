import DocumentReplication.Digest.Checksum
import DocumentReplication.Fault
import DocumentReplication.Text.Encoding
import DocumentReplication.Text.Lowercase
import DocumentReplication.Wire.Item

/-!
Every document lives in one partition, which its id alone decides, whatever the capitals in it.
Whatever belongs to a document goes where the document is.
-/

namespace DocumentReplication

structure Routing where
  partitionCount : Nat
  positive : 0 < partitionCount
deriving DecidableEq, Repr

namespace Routing

def among (partitionCount : Nat) : Except Fault Routing :=
  if positive : 0 < partitionCount then .ok ⟨partitionCount, positive⟩
  else .error (.settings .noPartitions)

def partitionOf (routing : Routing) (documentId : String) : Nat :=
  (Xxh3.hash (Text.utf8 (Text.lowercase documentId))).toNat % routing.partitionCount

/-- The partition of an item. The document of a deleted revision is unknown, which only matters
where there is a choice; payloads follow the attachments that need them. -/
def route (routing : Routing) : Item → Except Fault Nat
  | .payload hash _ => .error (.internal (.streamNotRouted hash))
  | .change change =>
    match change.body with
    | .revisionTombstone revision _ =>
      if routing.partitionCount = 1 then .ok 0
      else .error (.unsupported (.revisionWithoutDocument revision))
    | .document id .. | .documentTombstone id .. => .ok (routing.partitionOf id)
    | .attachment documentId .. | .attachmentTombstone documentId .. | .counter documentId ..
    | .timeSeries documentId .. | .timeSeriesDeletedRange documentId .. =>
      .ok (routing.partitionOf documentId)

theorem partitionOf_lt (routing : Routing) (documentId : String) :
    routing.partitionOf documentId < routing.partitionCount :=
  Nat.mod_lt _ routing.positive

theorem route_lt {routing : Routing} {item : Item} {partition : Nat}
    (routed : routing.route item = .ok partition) : partition < routing.partitionCount := by
  have owned (documentId : String)
      (same : Except.ok (ε := Fault) (routing.partitionOf documentId) = .ok partition) :
      partition < routing.partitionCount := by
    cases same
    exact routing.partitionOf_lt documentId
  cases item with
  | payload hash content => simp [route] at routed
  | change change =>
      simp only [route] at routed
      split at routed
      · split at routed
        · cases routed
          exact routing.positive
        · contradiction
      all_goals exact owned _ routed

end Routing

end DocumentReplication
