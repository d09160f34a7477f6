import MapLayers.CommandLine.Run

/-!
# The program

The host that the program finds on a real machine, and the entry point. Log records go to standard
error and to the log file.
-/

namespace MapLayers

/-- Where log records go. -/
structure LogSink where
  file : Option IO.FS.Handle
  verbose : Bool

abbrev Program := ExceptT Fault (StateT LogSink IO)

namespace Program

def pathFault : IO.Error → PathFault
  | .noFileOrDirectory .. => .missing
  | .alreadyExists .. => .exists
  | .inappropriateType _ code _ => if code = 21 then .directory else .notDirectory
  | _ => .refused

/-- The outcome of an action on the files. -/
def access {α : Type} (action : IO α) : Program (Except PathFault α) := do
  let outcome ← (action.toBaseIO : IO (Except IO.Error α))
  match outcome with
  | .ok value => return .ok value
  | .error fault => return .error (pathFault fault)

instance : Host Program where
  workingDirectory := do
    let directory ← (IO.currentDir : IO _)
    return Path.ofText directory.toString
  look p := do
    match ← access (IO.FS.readBinFile p.text) with
    | .ok bytes =>
      match String.fromUTF8? bytes with
      | some text => return .ok (.file text)
      | none => return .ok .binary
    | .error .directory => return .ok .directory
    | .error fault => return .error fault
  makeDirectory p := access (IO.FS.createDir p.text)
  write p text := access (IO.FS.writeFile p.text text)
  openLog p verbose := do
    match ← access (IO.FS.Handle.mk p.text .append) with
    | .ok file =>
      set (LogSink.mk (some file) verbose)
      return .ok ()
    | .error fault => return .error fault
  record entry := do
    let sink ← get
    if entry.level = .debug && !sink.verbose then return
    let line := " | ".intercalate [entry.level.name, entry.source.name, entry.message]
    (IO.eprintln line : IO Unit)
    match sink.file with
    | some file => (file.putStrLn line : IO Unit)
    | none => return

end Program

def usage : String :=
  "usage: mapcompiler compile [--config FILE] [--verbose] [--output FILE] [--omit-data] MAP.json\n"
    ++ "       mapcompiler validate [--config FILE] [--verbose] MAP.json"

/-- Runs the program; a fault that nothing has dealt with is shown, and the run has failed. -/
def runProgram (args : List String) : IO Nat := do
  let program : Program Nat := CommandLine.runTexts args
  let (outcome, _) ← program.run.run ⟨none, false⟩
  match outcome with
  | .ok code => return code
  | .error fault =>
    IO.eprintln s!"{fault.kind.label}: {fault.text}"
    return CommandLine.failed

end MapLayers

def main (args : List String) : IO UInt32 := do
  match MapLayers.Arguments.parse args with
  | .error .help => IO.println MapLayers.usage
  | .error .invalid => IO.eprintln MapLayers.usage
  | .ok _ => pure ()
  let code ← MapLayers.runProgram args
  return code.toUInt32
