import DocumentReplication.Dictionary
import DocumentReplication.Wire.Item

/-!
Which partitions need the content with a hash. A payload is sent once for a batch, and copied to
every partition that an attachment with its hash went to.
-/

namespace DocumentReplication

structure AttachmentReference where
  documentId : String
  name : String
deriving DecidableEq, Repr

structure References where
  byPartition : List (Dictionary String AttachmentReference)
deriving Repr

namespace References

def empty (partitionCount : Nat) : References :=
  ⟨List.replicate partitionCount .empty⟩

def get? (references : References) (partition : Nat) (hash : String) :
    Option AttachmentReference :=
  (references.byPartition[partition]?).bind (·.get? hash)

def contains (references : References) (partition : Nat) (hash : String) : Bool :=
  (references.get? partition hash).isSome

def ofItem? : Item → Option (String × AttachmentReference)
  | .change ⟨_, .attachment documentId name _ hash⟩ => some (hash, ⟨documentId, name⟩)
  | _ => none

/-- Notes an item that goes to a partition, and tells whether it is the first one there that needs
its content. -/
def observe (partition : Nat) (item : Item) (references : References) : Bool × References :=
  match ofItem? item with
  | none => (false, references)
  | some (hash, reference) =>
    if references.contains partition hash || references.byPartition.length ≤ partition then
      (false, references)
    else
      (true, ⟨references.byPartition.modify partition (·.insert hash reference)⟩)

def partitionsFor (references : References) (hash : String) : List Nat :=
  (List.range references.byPartition.length).filter (references.contains · hash)

def copies (references : References) (hash : String) (content : Bytes) : List (Nat × Item) :=
  (references.partitionsFor hash).map fun partition => (partition, .payload hash content)

def clear (references : References) : References :=
  empty references.byPartition.length

def size (references : References) : Nat :=
  references.byPartition.foldr (fun table total => table.size + total) 0

end References

end DocumentReplication
