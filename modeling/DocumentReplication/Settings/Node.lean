import DocumentReplication.Settings.Replication
import DocumentReplication.Text.Split
import DocumentReplication.Toml.Document

/-!
The settings of a node that runs on its own: a file in TOML says what differs from the standard, and
variables of the environment override the file.
-/

namespace DocumentReplication

instance : SettingsDocument Toml where
  text?
    | .text value => some value
    | _ => none
  integer?
    | .integer value => some value
    | _ => none
  flag?
    | .bool value => some value
    | _ => none
  list?
    | .array elements => some elements
    | .tables elements => some (elements.map (.table .opened))
    | _ => none
  /- The fields of a record may also stand in an array, in order. A moment is a record without any
  field that has a name. -/
  fields? names
    | .table _ members => some (names.map fun name => Dictionary.find name members)
    | .array elements => some (names.zipIdx.map fun (_, place) => elements[place]?)
    | .tables elements =>
      some (names.zipIdx.map fun (_, place) => elements[place]?.map (.table .opened))
    | .moment _ => some (names.map fun _ => none)
    | _ => none

structure NodeSettings where
  dataDirectory : String
  /-- How much a partition may map into memory, in octets. -/
  mapSize : Nat
  inMemory : Bool
  replication : ReplicationSettings
deriving DecidableEq, Repr

inductive NodeFault where
  | replication (cause : SettingsFault)
  | noMap
deriving DecidableEq, Repr

def NodeFault.message : NodeFault → String
  | replication cause => "Invalid replication configuration: " ++ cause.message
  | noMap => "map_size must be positive"

structure BadVariable where
  name : String
  value : String
deriving DecidableEq, Repr

def BadVariable.message (bad : BadVariable) : String :=
  "Invalid " ++ bad.name ++ " '" ++ bad.value ++ "'"

namespace NodeSettings

open SettingsDocument

def standard : NodeSettings := ⟨"./data", 1024 * 1024 * 1024, false, .standard⟩

instance : Inhabited NodeSettings := ⟨standard⟩

def fieldNames : List String := ["data_dir", "map_size", "in_memory", "replication"]

def ofDocument? {δ : Type} [SettingsDocument δ] (document : δ) : Option NodeSettings := do
  match ← fields? fieldNames document with
  | [dataDirectory, mapSize, inMemory, replication] =>
    return ⟨← setting text? standard.dataDirectory dataDirectory,
      ← setting natural? standard.mapSize mapSize, ← setting flag? standard.inMemory inMemory,
      ← setting ReplicationSettings.ofDocument? standard.replication replication⟩
  | _ => none

def ofFile? (content : String) : Option NodeSettings :=
  Toml.ofText? content >>= ofDocument?

/-- Settings that change one after another; changes before a variable that cannot be used stay. -/
abbrev Override := ExceptT BadVariable (StateM NodeSettings)

def override (environment : String → Option String) (name : String)
    (change : NodeSettings → String → Option NodeSettings) : Override Unit := do
  if let some value := environment name then
    match change (← get) value with
    | some settings => set settings
    | none => throw ⟨name, value⟩

def replicating {α : Type} (read : String → Option α)
    (change : ReplicationSettings → α → ReplicationSettings) (settings : NodeSettings)
    (value : String) : Option NodeSettings :=
  (read value).map fun value => { settings with replication := change settings.replication value }

def count? (text : String) : Option Nat := do
  let size ← Decimal.value? (match text.toList with
    | '+' :: digits => digits
    | digits => digits)
  if size < UInt64.size then some size else none

/-- The texts between commas, without blanks around them; empty ones do not count. -/
def listed (text : String) : List String :=
  (((Text.pieces ',' text.toList).map Text.trim).filter (!·.isEmpty)).map String.ofList

def variableNames : List String :=
  ["DOCREPL_NODE_TAG", "DOCREPL_BIND_ADDR", "DOCREPL_PARTITIONS", "DOCREPL_DATA_DIR",
   "DOCREPL_IGNORED_DB_IDS"]

def applyVariables (environment : String → Option String) : Override Unit := do
  override environment "DOCREPL_NODE_TAG"
    (replicating some fun settings tag => { settings with nodeTag := tag })
  override environment "DOCREPL_BIND_ADDR"
    (replicating Endpoint.ofText? fun settings address => { settings with bindAddress := address })
  override environment "DOCREPL_PARTITIONS"
    (replicating count? fun settings count => { settings with partitionCount := count })
  override environment "DOCREPL_DATA_DIR"
    (fun settings directory => some { settings with dataDirectory := directory })
  override environment "DOCREPL_IGNORED_DB_IDS"
    (replicating some fun settings ids =>
      { settings with scheduler := { settings.scheduler with ignoredIds := (listed ids).eraseDups } })

def check (settings : NodeSettings) : Except NodeFault Unit := do
  if let .error cause := settings.replication.check then throw (.replication cause)
  if !settings.inMemory ∧ settings.mapSize = 0 then throw .noMap

def partitionDirectory (settings : NodeSettings) (partition : Nat) : String :=
  let name := "partition-" ++ Decimal.natText partition
  if settings.dataDirectory.isEmpty || settings.dataDirectory.endsWith "/" then
    settings.dataDirectory ++ name
  else settings.dataDirectory ++ "/" ++ name

end NodeSettings

end DocumentReplication
