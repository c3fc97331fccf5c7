import NodeWatch.Cli
import NodeWatch.Store.Sql.Snapshot
import Std.Time.DateTime.Timestamp

/-!
The program on a real machine. The variables, the files and the clock are the machine's; its network
is left to what stands around the program, so that only listed nodes are found.
-/

namespace NodeWatch

open Cli

/-- The variables that the program reads. -/
def realEnvironment : IO Config.Environment := do
  let set ← Config.Variable.all.filterMapM fun v => do
    return (← IO.getEnv v.name).map fun s => (v.name, s.toUTF8.toList)
  return fun name => set.lookup name

def realNow : IO Time.Instant := do
  let seconds := (← Std.Time.Timestamp.now).toSecondsSinceUnixEpoch.val
  return .ofSeconds seconds

def contentOf (path : String) : IO (Option (List UInt8)) := do
  try return some (← IO.FS.readBinFile path).toList
  catch _ => return none

/-- The name of the machine, from the variable for it or from the file for it. -/
def realMachine : IO Machine := do
  let named := (← IO.getEnv "HOSTNAME").bind Observation.filled?
  let filed := ((← contentOf "/etc/hostname").bind Text.ofBytes?).bind Observation.filled?
  let model := (← contentOf "/proc/device-tree/model").bind fun bytes =>
    (Text.ofBytes? (bytes.takeWhile (· ≠ 0))).bind Observation.filled?
  return ⟨(named <|> filed).getD "", Store.unknownText, model⟩

/-- What is found where the records should be. Missing directories and a missing file are made; an
empty path is a place that is forgotten. -/
def realPlace (path : String) : IO Store.Sql.Place := do
  if path = "" then return .nothing
  let dir := ((Text.cutLast '/' path.toList).map (·.1)).getD []
  try if dir ≠ [] then IO.FS.createDirAll (String.ofList dir)
  catch _ => return .belowFile
  try
    match Text.ofBytes? (← IO.FS.readBinFile path).toList with
    | some s => return .ofText s
    | none => return .garbage
  catch
    | .noFileOrDirectory .. =>
      try
        IO.FS.writeFile path ""
        return .emptyFile
      catch _ => return .directory
    | _ => return .directory

def snapshotOf (r : Store.Repository) : String :=
  match r.backing with
  | .table t _ => t.snapshot
  | .memory _ => ""

/-- Goes on until interrupted, and writes the records down whenever they change. -/
partial def keepRunning (r : Running) (written : String) : IO Unit := do
  let s := snapshotOf r.records
  if s ≠ written then IO.FS.writeFile r.path s
  IO.sleep 500
  let now ← realNow
  keepRunning (r.goOn 500 (r.backend.look {} now) now) s

partial def waitForever : IO Unit := do
  IO.sleep 60000
  waitForever

/-- The host for an invocation, which says what is to be read of it. -/
def realHost (i : Option Invocation) : IO Host := do
  let named := i.bind (·.config)
  let content ← match named with
    | some p => contentOf p
    | none => pure none
  let h : Host := {
    environment := ← realEnvironment
    file := fun p => if some p = named then content else none
    registry := fun _ => .nothing
    machine := ← realMachine
    now := ← realNow
    logs := true }
  match i.filter (·.command.usesRecords) with
  | none => return h
  | some i =>
    match loadConfig h i.config with
    | .error _ => return h
    | .ok c =>
      let found ← realPlace c.storage.path
      return { h with registry := fun p => if p = c.storage.path then found else .nothing }

end NodeWatch

open NodeWatch Cli in
def main (words : List String) : IO UInt32 := do
  let h ← realHost (Invocation.ofWords words).toOption
  let o := Outcome.ofWords h words
  let out ← IO.getStdout
  for l in o.lines do
    out.putStrLn l
  out.flush
  match o.complaint? with
  | some c => (← IO.getStderr).putStrLn c
  | none => pure ()
  match o with
  | .misused => for l in helpLines none do (← IO.getStderr).putStrLn l
  | .running r => keepRunning r ""
  | .announcing _ => waitForever
  | _ => pure ()
  return o.code.toUInt32
