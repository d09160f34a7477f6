import MapLayers.Entries
import MapLayers.Fault
import MapLayers.Files.Path

/-!
# File trees

The files and directories below the root, each under the names that lead to it. A path is followed
name by name: every name on the way has to be a directory, and double dots lead back to the directory
above.
-/

namespace MapLayers

abbrev Location := List String

inductive FileNode where
  | directory
  | file (text : String)
  /-- A file with bytes that are no text. -/
  | binary
  deriving DecidableEq, Repr

inductive PathFault where
  | missing
  | exists
  | directory
  | notDirectory
  /-- No file can have the path. -/
  | unnameable
  | refused
  deriving DecidableEq, Repr

namespace PathFault

def kind : PathFault → FaultClass
  | missing => .missingFile
  | .exists => .fileExists
  | directory => .directory
  | notDirectory => .notDirectory
  | unnameable => .value
  | refused => .system

def toFault (f : PathFault) : Fault := .operation f.kind

/-- Whether the fault tells no more than that there is nothing at the path. -/
def isAbsence : PathFault → Bool
  | missing | notDirectory | unnameable => true
  | _ => false

end PathFault

structure FileTree where
  nodes : Entries Location FileNode

namespace FileTree

def maxName : Nat := 255

def maxPath : Nat := 4095

def node? (t : FileTree) (location : Location) : Option FileNode :=
  if location = [] then some .directory else Entries.get? t.nodes location

/-- One name further from a location, which has to be a directory. -/
def step (t : FileTree) (location : Location) (name : String) : Except PathFault Location :=
  match t.node? location with
  | none => .error .missing
  | some (.file _) | some .binary => .error .notDirectory
  | some .directory =>
    if maxName < name.utf8ByteSize then .error .refused else .ok (Path.climb location name)

def locate (t : FileTree) (p : Path) : Except PathFault Location :=
  if p.holdsNul then .error .unnameable
  else if maxPath < p.text.utf8ByteSize then .error .refused
  else p.parts.foldlM t.step []

def look (t : FileTree) (p : Path) : Except PathFault FileNode := do
  let location ← t.locate p
  match t.node? location with
  | some node => return node
  | none => throw .missing

def set (t : FileTree) (location : Location) (node : FileNode) : FileTree :=
  ⟨Entries.set t.nodes location node⟩

def makeDirectory (t : FileTree) (p : Path) : Except PathFault FileTree := do
  let location ← t.locate p
  match t.node? location with
  | some _ => throw .exists
  | none => return t.set location .directory

/-- The tree with a text in a file, which replaces what the file held. -/
def write (t : FileTree) (p : Path) (text : String) : Except PathFault FileTree := do
  let location ← t.locate p
  match t.node? location with
  | some .directory => throw .directory
  | _ => return t.set location (.file text)

/-- The tree with a file at the path, empty if it is new. -/
def touch (t : FileTree) (p : Path) : Except PathFault FileTree := do
  let location ← t.locate p
  match t.node? location with
  | some .directory => throw .directory
  | some _ => return t
  | none => return t.set location (.file "")

end FileTree

end MapLayers
