/-!
# Reports

The messages of one run over a document, collected by weight. A report without errors is in order and
says so in its last line.
-/

namespace MapLayers

structure Report where
  errors : List String
  warnings : List String
  infos : List String
  deriving DecidableEq, Repr

namespace Report

def empty : Report := ⟨[], [], []⟩

def ok (r : Report) : Bool := r.errors.isEmpty

def addError (r : Report) (message : String) : Report :=
  { r with errors := r.errors ++ [message] }

def addWarning (r : Report) (message : String) : Report :=
  { r with warnings := r.warnings ++ [message] }

def addInfo (r : Report) (message : String) : Report :=
  { r with infos := r.infos ++ [message] }

/-- The messages of one report followed by those of another. -/
def append (r s : Report) : Report :=
  ⟨r.errors ++ s.errors, r.warnings ++ s.warnings, r.infos ++ s.infos⟩

instance : Append Report := ⟨append⟩

/-- The lines of a report; `closing` ends one without errors. -/
def lines (r : Report) (closing : String) : List String :=
  r.infos.map (fun message => s!"[INFO] {message}")
    ++ r.warnings.map (fun message => s!"[WARN] {message}")
    ++ r.errors.map (fun message => s!"[ERROR] {message}")
    ++ if r.ok then [s!"[OK] {closing}"] else []

end Report

end MapLayers
