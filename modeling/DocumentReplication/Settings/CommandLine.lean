import DocumentReplication.Settings.Node

/-!
The command line of a node. What it says comes before the environment and the settings document.
-/

namespace DocumentReplication

structure CommandLine where
  document : Option String
  nodeTag : Option String
  bindAddress : Option Endpoint
  partitionCount : Option Nat
  dataDirectory : Option String
  inMemory : Bool
  verbose : Bool
  logsJson : Bool
deriving DecidableEq, Repr

inductive CommandLineFault where
  | unknown (argument : String)
  | valueMissing (option : String)
  | badValue (option value : String)
deriving DecidableEq, Repr

def CommandLineFault.message : CommandLineFault → String
  | unknown argument => "unexpected argument '" ++ argument ++ "'"
  | valueMissing option => "a value is required for '" ++ option ++ "'"
  | badValue option value => "invalid value '" ++ value ++ "' for '" ++ option ++ "'"

inductive StartFault where
  | document
  | environment (bad : BadVariable)
  | settings (fault : NodeFault)
deriving DecidableEq, Repr

def StartFault.message : StartFault → String
  | document => "Failed to parse the settings document"
  | environment bad => bad.message
  | settings fault => fault.message

namespace CommandLine

def empty : CommandLine := ⟨none, none, none, none, none, false, false, false⟩

instance : Inhabited CommandLine := ⟨empty⟩

def flag? : String → Option (CommandLine → CommandLine)
  | "--in-memory" => some fun line => { line with inMemory := true }
  | "--verbose" | "-v" => some fun line => { line with verbose := true }
  | "--log-json" => some fun line => { line with logsJson := true }
  | _ => none

def setting? : String → Option (String → CommandLine → Option CommandLine)
  | "--config" | "-c" => some fun text line => some { line with document := some text }
  | "--node-tag" => some fun tag line => some { line with nodeTag := some tag }
  | "--bind" => some fun text line => do
    return { line with bindAddress := some (← Endpoint.ofText? text) }
  | "--partitions" => some fun text line => do
    return { line with partitionCount := some (← NodeSettings.count? text) }
  | "--data-dir" => some fun directory line => some { line with dataDirectory := some directory }
  | _ => none

def joined? (argument : String) : Option (String × String) :=
  match argument.splitOn "=" with
  | option :: first :: rest => some (option, String.intercalate "=" (first :: rest))
  | _ => none

def assign (option value : String) (line : CommandLine) : Except CommandLineFault CommandLine :=
  match setting? option with
  | none => .error (.unknown option)
  | some set => ((set value line).map .ok).getD (.error (.badValue option value))

def single (argument : String) (line : CommandLine) : Except CommandLineFault CommandLine :=
  match flag? argument with
  | some set => .ok (set line)
  | none =>
    if (setting? argument).isSome then .error (.valueMissing argument)
    else match joined? argument with
      | some (option, value) => assign option value line
      | none => .error (.unknown argument)

def read : List String → CommandLine → Except CommandLineFault CommandLine
  | [], line => .ok line
  | [argument], line => single argument line
  | argument :: value :: rest, line =>
    if (setting? argument).isSome then do read rest (← assign argument value line)
    else do read (value :: rest) (← single argument line)

def ofArguments (arguments : List String) : Except CommandLineFault CommandLine :=
  read arguments empty

def override (line : CommandLine) (settings : NodeSettings) : NodeSettings :=
  let replication := settings.replication
  { settings with
    dataDirectory := line.dataDirectory.getD settings.dataDirectory
    inMemory := line.inMemory || settings.inMemory
    replication := { replication with
      nodeTag := line.nodeTag.getD replication.nodeTag
      bindAddress := line.bindAddress.getD replication.bindAddress
      partitionCount := line.partitionCount.getD replication.partitionCount } }

/-- The settings of a node: the standard ones, changed by the settings document, then by the
environment, then by the command line. -/
def nodeSettings (line : CommandLine) (environment : String → Option String) :
    Except StartFault NodeSettings := do
  let loaded := match line.document with
    | none => some NodeSettings.standard
    | some text => NodeSettings.ofFile? text
  let some documented := loaded | throw .document
  let (outcome, settings) := NodeSettings.applyVariables environment documented
  if let .error bad := outcome then throw (.environment bad)
  let settings := line.override settings
  if let .error fault := settings.check then throw (.settings fault)
  return settings

end CommandLine

end DocumentReplication
