import MapLayers.Dataset
import MapLayers.Files.Host

/-!
# Settings

Where the program finds payloads and leaves its results, how strict it is, and how results are
written. Relative paths start at the directory of the settings file. Without a file all settings have
their defaults.
-/

namespace MapLayers

structure PathSettings where
  datasets : Option Path
  output : Path
  logs : Path
  deriving DecidableEq, Repr

structure CompileSettings where
  token : Option String
  failOnDroppedLayers : Bool
  deriving DecidableEq, Repr

structure OutputSettings where
  indent : Nat
  sortKeys : Bool
  placeholder : String
  deriving DecidableEq, Repr

structure Settings where
  source : Option Path
  paths : PathSettings
  compile : CompileSettings
  output : OutputSettings
  deriving DecidableEq, Repr

namespace Settings

/-- The value of a setting, or its default if it is not there. -/
def orDefault (fields : Json.Fields) (key : String) (fallback : Json) : Json :=
  (Entries.get? fields key).getD fallback

def section? (fields : Json.Fields) (key : String) : Result Json.Fields :=
  match Json.fieldOf fields key with
  | .null => .ok []
  | .object inner => .ok inner
  | _ => .error (.expectedMapping key)

/-- A text without the blanks around it, of which something has to be left. -/
def trimmedText (value : Json) (field : String) : Result String := do
  let s ← requireText value field
  return Text.trim s

def optionalText (value : Json) (field : String) : Result (Option String) :=
  if value.isNull then .ok none else (trimmedText value field).map some

def boolean (value : Json) (field : String) : Result Bool :=
  match value with
  | .bool b => .ok b
  | _ => .error (.expectedBool field)

def whole (value : Json) (field : String) : Result Int :=
  match value with
  | .int n => .ok n
  | _ => .error (.expectedInteger field)

def path (root : Path) (value : Json) (field : String) : Result Path := do
  let s ← trimmedText value field
  return root.join (Path.ofText s)

def pathSettings (root : Path) (fields : Json.Fields) : Result PathSettings := do
  let authored := Json.fieldOf fields "datasets_dir"
  let datasets ←
    if authored.isNull then pure none else (path root authored "paths.datasets_dir").map some
  let output ← path root (orDefault fields "output_dir" (.text "build/descriptors"))
    "paths.output_dir"
  let logs ← path root (orDefault fields "logs_dir" (.text "build/logs")) "paths.logs_dir"
  return ⟨datasets, output, logs⟩

def compileSettings (fields : Json.Fields) : Result CompileSettings := do
  let token ← optionalText (Json.fieldOf fields "token") "compile.token"
  let strict ← boolean (orDefault fields "fail_on_dropped_layers" (.bool false))
    "compile.fail_on_dropped_layers"
  return ⟨token, strict⟩

def outputSettings (fields : Json.Fields) : Result OutputSettings := do
  let indent ← whole (orDefault fields "indent" (.int 2)) "output.indent"
  if indent < 0 then throw .negativeIndent
  let sortKeys ← boolean (orDefault fields "sort_keys" (.bool true)) "output.sort_keys"
  let placeholder ← trimmedText (orDefault fields "accessor_placeholder" (.text "<accessor>"))
    "output.accessor_placeholder"
  return ⟨indent.toNat, sortKeys, placeholder⟩

/-- Settings from their sections, with relative paths below a root. -/
def ofSections (fields : Json.Fields) (root : Path) (source : Option Path) : Result Settings := do
  let paths ← pathSettings root (← section? fields "paths")
  let compile ← compileSettings (← section? fields "compile")
  let output ← outputSettings (← section? fields "output")
  return ⟨source, paths, compile, output⟩

/-- The settings of a file at an absolute path. -/
def ofFields (fields : Json.Fields) (source : Path) : Result Settings :=
  ofSections fields source.parent.collapsed (some source.collapsed)

def defaults (root : Path) : Settings where
  source := none
  paths := ⟨none, root.join (Path.ofText "build/descriptors"), root.join (Path.ofText "build/logs")⟩
  compile := ⟨none, false⟩
  output := ⟨2, true, "<accessor>"⟩

/-- The settings that a text holds; an empty one leaves all at their defaults. -/
def ofText [Platform] (text : String) (source : Path) : Result Settings := do
  match ← Platform.readSettings text with
  | .null => ofFields [] source
  | .object fields => ofFields fields source
  | _ => throw .settingsNotMapping

/-- The directories that have to be there before anything is written. -/
def buildDirectories (s : Settings) : List Path := [s.paths.output, s.paths.logs]

/-- Reads a settings file. -/
def load {m : Type → Type} [Monad m] [MonadExceptOf Fault m] [Host m] [Platform] (p : Path) :
    m Settings := do
  let directory ← Host.workingDirectory
  let source := (directory.join p).collapsed
  unless ← Files.isThere source do throw (Fault.missingSettings source.text)
  let text ← Files.readText source
  Files.ofResult (ofText text source)

end Settings

end MapLayers
