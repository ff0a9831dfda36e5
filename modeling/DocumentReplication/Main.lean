import DocumentReplication.Connection.Listener
import DocumentReplication.Settings.CommandLine

/-!
The program: a node that serves the peer at its standard streams, and that keeps its partitions as
long as it runs. It reports to the standard error stream.
-/

namespace DocumentReplication.Program

def peerName : String := "standard input"

def listenerFor (settings : NodeSettings) : Listener :=
  let replication := settings.replication
  let backend : Backend := if settings.inMemory then .memory else .mapped
  let count := replication.partitionCount
  let stores := List.replicate count (Partition.create backend)
  .create replication (.start replication.scheduler count count stores)

def chunkSize : USize := 65536

def report (line : CommandLine) (message : String) : IO Unit := do
  let shown := if line.logsJson then
      (Text.ofUtf8? (Json.ofMembers [("message", Json.ofString message)]).write).getD ""
    else message
  (← IO.getStderr).putStrLn shown

partial def serve (line : CommandLine) (number since : Nat) (listener : Listener) : IO Listener := do
  let bytes ← (← IO.getStdin).read chunkSize
  let now ← IO.monoMsNow
  let listener := listener.elapse (.ofMillis (now - since))
  let (replies, listener) := if bytes.isEmpty then listener.finish number
    else listener.receive number bytes.toList
  let output ← IO.getStdout
  for reply in replies do
    if line.verbose then report line ("Replied " ++ reply.kind.name)
    output.write ⟨reply.frame.encode.toArray⟩
  output.flush
  if listener.registrations.contains number && !bytes.isEmpty then
    serve line number now listener
  else return listener

def run (line : CommandLine) (settings : NodeSettings) : IO UInt32 := do
  let (admission, listener) := (listenerFor settings).welcome peerName
  match admission with
  | .refused reply =>
    (← IO.getStdout).write ⟨reply.frame.encode.toArray⟩
    return 1
  | .failed fault =>
    report line fault.message
    return 1
  | .accepted number =>
    let listener ← serve line number (← IO.monoMsNow) listener
    for message in listener.stop.summary do report line message
    return 0

def environment : IO (Dictionary String String) := do
  let found ← NodeSettings.variableNames.mapM fun name => do
    return (← IO.getEnv name).map fun value => (name, value)
  return .ofList found.reduceOption

end DocumentReplication.Program

open DocumentReplication in
def main (arguments : List String) : IO UInt32 := do
  match CommandLine.ofArguments arguments with
  | .error fault =>
    (← IO.getStderr).putStrLn ("error: " ++ fault.message)
    return 2
  | .ok line =>
    let environment ← Program.environment
    match line.nodeSettings environment.get? with
    | .error fault =>
      (← IO.getStderr).putStrLn ("Error: " ++ fault.message)
      return 1
    | .ok settings => Program.run line settings
