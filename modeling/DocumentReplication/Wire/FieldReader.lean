import DocumentReplication.Wire.Reader

/-!
Octets read field by field, for whoever looks at each field on its own. A read that fails ends
nothing: the next one goes on with what is left. A record is read by its layout instead, which gives
up at the first fault.
-/

namespace DocumentReplication

/-- What a read of a field came to. -/
structure FieldRead where
  kind : FieldKind
  outcome : Except Fault kind.Value

structure FieldReader where
  /-- What the octets are, for the wording of faults. -/
  record : String
  rest : Bytes
deriving DecidableEq, Repr

namespace FieldReader

def next (reader : FieldReader) (kind : FieldKind) : FieldRead × FieldReader :=
  let (outcome, rest) := kind.read reader.record reader.rest
  (⟨kind, onWire outcome⟩, { reader with rest })

def readAll (reader : FieldReader) : List FieldKind → List FieldRead × FieldReader
  | [] => ([], reader)
  | kind :: kinds =>
    let (first, reader) := reader.next kind
    let (others, reader) := reader.readAll kinds
    (first :: others, reader)

/-- Nothing may be left at the end. -/
def finish (reader : FieldReader) : Except Fault Unit :=
  onWire (Layout.finish reader.record reader.rest)

end FieldReader

/-- Reads that return the values of a layout one by one. -/
def Layout.returning : (layout : Layout) → layout.Values → List FieldRead
  | [], _ => []
  | kind :: layout, (value, values) => ⟨kind, .ok value⟩ :: returning layout values

end DocumentReplication
