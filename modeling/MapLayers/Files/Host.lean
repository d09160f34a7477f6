import MapLayers.Files.Tree
import MapLayers.Log
import MapLayers.Platform

/-!
# Hosts

What the program needs of the machine it runs on: a working directory, files, and a log. Everything
that reads or writes files is a program over any host; a session is a host that lives in memory.
-/

namespace MapLayers

class Host (m : Type → Type) where
  workingDirectory : m Path
  look : Path → m (Except PathFault FileNode)
  makeDirectory : Path → m (Except PathFault Unit)
  write : Path → String → m (Except PathFault Unit)
  /-- Opens the log file, with debug records in the log or without. -/
  openLog : Path → Bool → m (Except PathFault Unit)
  record : LogRecord → m Unit

namespace Files

variable {m : Type → Type} [Monad m] [MonadExceptOf Fault m] [Host m]

def demand {α : Type} (outcome : Except PathFault α) : m α :=
  match outcome with
  | .ok value => pure value
  | .error fault => throw fault.toFault

def ofResult {α : Type} (result : Result α) : m α :=
  match result with
  | .ok value => pure value
  | .error fault => throw fault

/-- Runs a program; an expected fault becomes its outcome, any other one is passed on. -/
def attempt {α : Type} (isExpected : Fault → Bool) (program : m α) : m (Result α) :=
  tryCatch (do return .ok (← program)) fun fault =>
    if isExpected fault then return .error fault else throw fault

def isDirectory (p : Path) : m Bool := do
  match ← Host.look p with
  | .ok .directory => return true
  | _ => return false

def isThere (p : Path) : m Bool := do
  match ← Host.look p with
  | .ok _ => return true
  | .error fault => if fault.isAbsence then return false else throw fault.toFault

def readText (p : Path) : m String := do
  match ← demand (← Host.look p) with
  | .file text => return text
  | .directory => throw PathFault.directory.toFault
  | .binary => throw (Fault.operation .decoding)

def readJson [Platform] (p : Path) : m Json := do
  ofResult (Platform.readDocument (← readText p))

def write (p : Path) (text : String) : m Unit := do
  demand (← Host.write p text)

/-- A fault that a directory which is already there excuses. -/
def excuse (p : Path) (fault : PathFault) : m Unit := do
  unless ← isDirectory p do throw fault.toFault

/-- Makes the directory with the given parts, last one first, and those above it. -/
def ensureParts (root : PathRoot) : List String → m Unit
  | [] => do
    match ← Host.makeDirectory ⟨root, []⟩ with
    | .ok _ => return
    | .error fault => excuse ⟨root, []⟩ fault
  | name :: above => do
    let p : Path := ⟨root, (name :: above).reverse⟩
    match ← Host.makeDirectory p with
    | .ok _ => return
    | .error .missing => do
      ensureParts root above
      match ← Host.makeDirectory p with
      | .ok _ => return
      | .error fault => excuse p fault
    | .error fault => excuse p fault

def ensureDirectory (p : Path) : m Unit := ensureParts p.root p.parts.reverse

/-- Writes a document to a file, with the directories above it. A fault of the document shows when the file
has been opened, so that what it held is lost. -/
def writeJson [Platform] (p : Path) (indent : Nat) (sorted : Bool) (document : Json) : m Unit := do
  ensureDirectory p.parent
  match Platform.writeDocument indent sorted document with
  | .ok text => write p text
  | .error fault => do
    write p (Platform.unfinished document)
    throw fault

def record (level : LogLevel) (source : LogSource) (message : String) : m Unit :=
  Host.record ⟨level, source, message⟩

end Files

/-- Everything that a program can see and change. -/
structure World where
  files : FileTree
  /-- An absolute path. -/
  directory : Path
  verbose : Bool
  log : Log

abbrev Session := ExceptT Fault (StateM World)

namespace Session

def change (f : FileTree → Path → Except PathFault FileTree) (p : Path) :
    Session (Except PathFault Unit) := do
  let world ← get
  match f world.files (world.directory.join p) with
  | .ok files =>
    set { world with files := files }
    return .ok ()
  | .error fault => return .error fault

instance : Host Session where
  workingDirectory := do return (← get).directory
  look p := do
    let world ← get
    return world.files.look (world.directory.join p)
  makeDirectory p := change FileTree.makeDirectory p
  write p text := change (fun files p => files.write p text) p
  openLog p verbose := do
    modify fun world => { world with verbose := verbose }
    change FileTree.touch p
  record entry := modify fun world =>
    if entry.level = .debug && !world.verbose then world
    else { world with log := world.log ++ [entry] }

def run {α : Type} (program : Session α) (world : World) : Result α × World :=
  (ExceptT.run program : StateM World (Except Fault α)).run world

end Session

end MapLayers
