/-!
# Paths

A path is written with slashes and may start at the root. Empty parts and single dots mean nothing and
are dropped; double dots stay, because what they mean depends on the files. Two slashes at the start
are a root of their own, three or more are one.
-/

namespace MapLayers

inductive PathRoot where
  | none
  | slash
  | doubleSlash
  deriving DecidableEq, Repr

structure Path where
  root : PathRoot
  parts : List String
  deriving DecidableEq, Repr

namespace Path

/-- The pieces between slashes; `acc` holds the characters of the current one, last one first. -/
def pieces (acc : List Char) : List Char → List (List Char)
  | [] => [acc.reverse]
  | c :: rest => if c = '/' then acc.reverse :: pieces [] rest else pieces (c :: acc) rest

def rootOf : List Char → PathRoot
  | '/' :: '/' :: '/' :: _ => .slash
  | '/' :: '/' :: _ => .doubleSlash
  | '/' :: _ => .slash
  | _ => .none

/-- Whether a piece stands for a directory or file of its own. -/
def isPart (piece : List Char) : Bool := piece ≠ [] && piece ≠ ['.']

def ofText (s : String) : Path :=
  ⟨rootOf s.toList, ((pieces [] s.toList).filter isPart).map String.ofList⟩

def rootText : PathRoot → String
  | .none => ""
  | .slash => "/"
  | .doubleSlash => "//"

def text (p : Path) : String :=
  if p.root = .none ∧ p.parts = [] then "." else rootText p.root ++ "/".intercalate p.parts

def holdsNul (p : Path) : Bool := p.parts.any fun part => part.toList.contains '\x00'

def isAbsolute (p : Path) : Bool := p.root ≠ .none

/-- The second path seen from the first; an absolute one replaces it. -/
def join (base p : Path) : Path :=
  if p.isAbsolute then p else ⟨base.root, base.parts ++ p.parts⟩

def child (base : Path) (name : String) : Path := base.join (ofText name)

def parent (p : Path) : Path := ⟨p.root, p.parts.dropLast⟩

def name (p : Path) : String := p.parts.getLast?.getD ""

/-- The characters before the last dot, if that is neither the first nor the last character. -/
def stem (p : Path) : String :=
  let reversed := p.name.toList.reverse
  let suffix := reversed.takeWhile (· ≠ '.')
  let rest := reversed.drop (suffix.length + 1)
  if suffix.isEmpty || rest.isEmpty then p.name else String.ofList rest.reverse

/-- Goes one part on from `done`, where double dots go back up. -/
def climb (done : List String) (part : String) : List String :=
  if part = ".." then done.dropLast else done ++ [part]

/-- The path without double dots, as if every directory on the way were there. -/
def collapsed (p : Path) : Path := ⟨p.root, p.parts.foldl climb []⟩

end Path

end MapLayers
