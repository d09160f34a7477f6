import MapLayers.CommandLine.Arguments
import MapLayers.CompiledMap
import MapLayers.Payload
import MapLayers.Settings
import MapLayers.Validation

/-!
# Runs of the program

A run reads its settings, prepares the log and its directories, and then compiles or validates one map
document. What goes wrong with the document is logged and ends the run with the exit code one; faults
of the settings or of other files are left to the caller.
-/

namespace MapLayers.CommandLine

variable {m : Type → Type} [Monad m] [MonadExceptOf Fault m] [Host m]

def succeeded : Nat := 0

def failed : Nat := 1

def misused : Nat := 2

def info (message : String) : m Unit := Files.record .info .commandLine message

def complain (message : String) : m Unit := Files.record .error .commandLine message

/-- The settings of a call, and everything that has to be there before the run begins. -/
def prepare [Platform] (args : Arguments) : m Settings := do
  let settings ← match args.config with
    | none => do
      let directory ← Host.workingDirectory
      pure (Settings.defaults directory)
    | some file => Settings.load (Path.ofText file)
  Files.ensureDirectory settings.paths.logs
  Files.demand (← Host.openLog (settings.paths.logs.child "mapcompiler.log") args.verbose)
  settings.buildDirectories.forM Files.ensureDirectory
  return settings

/-- Whether a fault of reading a document is reported instead of passed on. -/
def isReadFault (fault : Fault) : Bool :=
  match fault.kind with
  | .missingFile | .fileExists | .directory | .notDirectory | .system => true
  | .jsonText | .decoding | .value => true
  | _ => false

/-- The map document with its payloads, or none after a complaint. -/
def loadDocument [Platform] (settings : Settings) (mapPath : Path) : m (Option Json.Fields) := do
  match ← Files.attempt isReadFault (Files.readJson mapPath) with
  | .error fault =>
    complain s!"Failed reading map document {mapPath.text}: {fault.text}"
    return none
  | .ok (.object document) => return some (← Payload.attach document settings.paths.datasets)
  | .ok _ =>
    complain s!"Map document {mapPath.text} must be a JSON object"
    return none

def validate [Platform] (settings : Settings) (mapPath : Path) : m Nat := do
  match ← loadDocument settings mapPath with
  | none => return failed
  | some document =>
    let report ← Files.ofResult (Validation.run document)
    (report.lines Validation.closing).forM info
    return if report.ok then succeeded else failed

/-- Where the descriptors of a map go: the given path, or a file named for the map. -/
def outputPath (settings : Settings) (mapPath : Path) (output : Option String) : Path :=
  let usual := settings.paths.output.child (mapPath.stem ++ ".layers.json")
  match output with
  | some text => if text = "" then usual else Path.ofText text
  | none => usual

def tokenJson : Option String → Json
  | some token => .text token
  | none => .null

def descriptors (settings : OutputSettings) (omitData : Bool) (map : CompiledMap) : Json :=
  map.toJson (.text settings.placeholder) !omitData

def compile [Platform] (settings : Settings) (mapPath : Path) (output : Option String) (omitData : Bool) :
    m Nat := do
  match ← loadDocument settings mapPath with
  | none => return failed
  | some document =>
    match CompiledMap.ofFields (tokenJson settings.compile.token) document with
    | .error (.document cause) =>
      complain s!"Cannot compile {mapPath.text}: {cause.message}"
      return failed
    | .error fault => throw fault
    | .ok compilation =>
      compilation.log.forM Host.record
      compilation.report.lines.forM info
      let target := outputPath settings mapPath output
      let document ← Files.ofResult
        (Platform.converted (descriptors settings.output omitData compilation.map))
      Files.writeJson target settings.output.indent settings.output.sortKeys document
      info s!"Layer descriptors written to {target.text}"
      let dropped := compilation.report.dropped
      if settings.compile.failOnDroppedLayers && dropped ≠ 0 then
        complain s!"{dropped} layers were dropped during compilation."
        return failed
      return succeeded

/-- Runs the command of a call; gives the exit code. -/
def run [Platform] (args : Arguments) : m Nat := do
  let settings ← prepare args
  let mapPath := Path.ofText args.mapPath
  match args.command with
  | .compile output omitData => compile settings mapPath output omitData
  | .validate => validate settings mapPath

def runTexts [Platform] (args : List String) : m Nat :=
  match Arguments.parse args with
  | .error .help => pure succeeded
  | .error .invalid => pure misused
  | .ok args => run args

end MapLayers.CommandLine
