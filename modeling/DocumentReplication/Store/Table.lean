/-!
The tables of a partition store.
-/

namespace DocumentReplication

inductive Table where
  | documents
  | tombstones
  | attachments
  | attachmentBlobs
  | counters
  | timeSeries
  | timeSeriesRanges
  | revisionTombstones
  | state
deriving DecidableEq, Repr

namespace Table

def all : List Table :=
  [documents, tombstones, attachments, attachmentBlobs, counters, timeSeries, timeSeriesRanges,
   revisionTombstones, state]

def name : Table → String
  | documents => "documents"
  | tombstones => "tombstones"
  | attachments => "attachments"
  | attachmentBlobs => "attachment_blobs"
  | counters => "counters"
  | timeSeries => "time_series"
  | timeSeriesRanges => "time_series_ranges"
  | revisionTombstones => "revision_tombstones"
  | state => "state"

def ofName? (name : String) : Option Table :=
  all.find? (·.name == name)

end Table

end DocumentReplication
