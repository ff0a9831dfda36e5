/-!
The kinds of replicated items and of frames, with the octet that announces each on the wire.
-/

namespace DocumentReplication

inductive ItemKind where
  | document
  | documentTombstone
  | attachment
  | attachmentTombstone
  | attachmentStream
  | counter
  | timeSeries
  | timeSeriesDeletedRange
  | revisionTombstone
deriving DecidableEq, Repr

namespace ItemKind

def all : List ItemKind :=
  [document, documentTombstone, attachment, attachmentTombstone, attachmentStream, counter,
   timeSeries, timeSeriesDeletedRange, revisionTombstone]

def tag : ItemKind → UInt8
  | document => 1
  | documentTombstone => 2
  | attachment => 3
  | attachmentTombstone => 4
  | attachmentStream => 5
  | counter => 6
  | timeSeries => 7
  | timeSeriesDeletedRange => 8
  | revisionTombstone => 9

def ofTag? (tag : UInt8) : Option ItemKind :=
  all.find? (·.tag == tag)

def name : ItemKind → String
  | document => "Document"
  | documentTombstone => "DocumentTombstone"
  | attachment => "Attachment"
  | attachmentTombstone => "AttachmentTombstone"
  | attachmentStream => "AttachmentStream"
  | counter => "Counter"
  | timeSeries => "TimeSeries"
  | timeSeriesDeletedRange => "TimeSeriesDeletedRange"
  | revisionTombstone => "RevisionTombstone"

def describe : ItemKind → String
  | document => "document item"
  | documentTombstone => "document tombstone item"
  | attachment => "attachment item"
  | attachmentTombstone => "attachment tombstone item"
  | attachmentStream => "attachment stream item"
  | counter => "counter item"
  | timeSeries => "time-series item"
  | timeSeriesDeletedRange => "time-series deleted range item"
  | revisionTombstone => "revision tombstone item"

@[simp] theorem ofTag?_tag (kind : ItemKind) : ofTag? kind.tag = some kind := by
  cases kind <;> rfl

theorem tag_of_ofTag? {tag : UInt8} {kind : ItemKind} (found : ofTag? tag = some kind) :
    kind.tag = tag :=
  eq_of_beq (List.find?_some (p := fun kind : ItemKind => kind.tag == tag) found)

end ItemKind

inductive FrameKind where
  | message
  | item
  | attachmentStream
deriving DecidableEq, Repr

namespace FrameKind

def all : List FrameKind := [message, item, attachmentStream]

def tag : FrameKind → UInt8
  | message => 1
  | item => 2
  | attachmentStream => 3

def ofTag? (tag : UInt8) : Option FrameKind :=
  all.find? (·.tag == tag)

def name : FrameKind → String
  | message => "Message"
  | item => "Item"
  | attachmentStream => "AttachmentStream"

@[simp] theorem ofTag?_tag (kind : FrameKind) : ofTag? kind.tag = some kind := by
  cases kind <;> rfl

theorem tag_of_ofTag? {tag : UInt8} {kind : FrameKind} (found : ofTag? tag = some kind) :
    kind.tag = tag :=
  eq_of_beq (List.find?_some (p := fun kind : FrameKind => kind.tag == tag) found)

end FrameKind

end DocumentReplication
