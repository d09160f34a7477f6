import MapLayers.Proofs.SessionRuns
import MapLayers.Proofs.TreeWalks

/-!
# What programs do to files

A program adds directories, and touches only the files it writes: all others hold afterwards what they held
before. Which file a path leads to is settled once its directories are there, so the files touched can be
told by their paths in the last world of a run.
-/

namespace MapLayers

namespace World

/-- Where a path leads, seen from the working directory. -/
def LeadsTo (w : World) (p : Path) (location : Location) : Prop :=
  w.files.locate (w.directory.join p) = .ok location

/-- The file at a path holds a text. -/
def Holds (w : World) (p : Path) (text : String) : Prop :=
  ∃ location, w.LeadsTo p location ∧ w.files.node? location = some (.file text)

theorem Holds.unique {w : World} {p : Path} {text other : String} (h : w.Holds p text)
    (h' : w.Holds p other) : text = other := by
  obtain ⟨location, hleads, hnode⟩ := h
  obtain ⟨_, hleads', hnode'⟩ := h'
  obtain rfl := Except.ok.inj (hleads.symm.trans hleads')
  simpa using hnode.symm.trans hnode'

/-- Two paths lead to the same place. -/
def SamePlace (w : World) (p q : Path) : Prop := ∃ location, w.LeadsTo p location ∧ w.LeadsTo q location

/-- The place that a path leads to, if it leads anywhere. -/
def place? (w : World) (p : Path) : Option Location := (w.files.locate (w.directory.join p)).toOption

theorem not_samePlace {w : World} {p q : Path} (h : w.place? p ≠ w.place? q) : ¬w.SamePlace p q := by
  rintro ⟨location, hp, hq⟩
  unfold LeadsTo at hp hq
  unfold place? at h
  rw [hp, hq] at h
  exact h rfl

theorem node_of_view {w : World} {p : Path} {node : FileNode} (h : w.view p = .ok node) :
    ∃ location, w.files.node? location = some node := by
  rw [view, FileTree.look_eq, Result.bind_eq_ok_iff] at h
  obtain ⟨location, -, hfound⟩ := h
  refine ⟨location, ?_⟩
  unfold FileTree.found at hfound
  split at hfound <;> simp_all

/-- The second world has the directories of the first one, and its files apart from those at some paths. -/
structure Extends (paths : List Path) (a b : World) : Prop where
  origin : b.directory = a.directory
  files : a.files.Extends (fun location => ∃ p ∈ paths, b.LeadsTo p location) b.files

variable {a b c : World} {paths more : List Path} {p : Path} {location : Location}

theorem SameFiles.leadsTo (h : a.SameFiles b) : a.LeadsTo p location ↔ b.LeadsTo p location := by
  unfold LeadsTo
  rw [h.files, h.directory]

theorem SameFiles.holds {text : String} (h : a.SameFiles b) : a.Holds p text ↔ b.Holds p text := by
  unfold Holds
  rw [h.files]
  simp only [h.leadsTo]

theorem SameFiles.extends (h : a.SameFiles b) : a.Extends paths b := by
  refine ⟨h.directory.symm, ?_⟩
  rw [← h.files]
  exact ⟨fun _ => id, fun _ _ => rfl⟩

namespace Extends

theorem refl (a : World) : a.Extends paths a := (SameFiles.refl a).extends

theorem leadsTo (h : a.Extends paths b) (hleads : a.LeadsTo p location) : b.LeadsTo p location := by
  unfold LeadsTo at hleads ⊢
  rw [h.origin]
  exact h.files.locate hleads

theorem trans (hab : a.Extends paths b) (hbc : b.Extends paths c) : a.Extends paths c := by
  refine ⟨hbc.origin.trans hab.origin, ?_, ?_⟩
  · intro location hdirectory
    exact hbc.files.directories _ (hab.files.directories _ hdirectory)
  · intro location huntouched
    have hfirst : ¬∃ p ∈ paths, b.LeadsTo p location := by
      rintro ⟨p, hp, hleads⟩
      exact huntouched ⟨p, hp, hbc.leadsTo hleads⟩
    exact (hbc.files.files _ huntouched).trans (hab.files.files _ hfirst)

theorem mono (h : a.Extends paths b) (hpaths : paths ⊆ more) : a.Extends more b := by
  refine ⟨h.origin, h.files.directories, fun location huntouched => ?_⟩
  apply h.files.files
  rintro ⟨p, hp, hleads⟩
  exact huntouched ⟨p, hpaths hp, hleads⟩

/-- A file that no path leads to holds what it held. -/
theorem file_eq (h : a.Extends paths b) (huntouched : ∀ p ∈ paths, ¬b.LeadsTo p location) :
    b.files.file? location = a.files.file? location := by
  apply h.files.files
  rintro ⟨p, hp, hleads⟩
  exact huntouched p hp hleads

end Extends

end World

namespace Session

variable {α β : Type} {paths : List Path}

/-- A program that touches no other files, whether it succeeds or not. -/
def Extending (paths : List Path) {α : Type} (program : Session α) : Prop :=
  ∀ w : World, w.Extends paths (run program w).2

theorem Observes.extending {program : Session α} {outcome : View → Result α}
    (h : Observes program outcome) : Extending paths program :=
  fun w => (h.keeps w).symm.extends

theorem Extending.bind {program : Session α} {rest : α → Session β}
    (h : Extending paths program) (hrest : ∀ a, Extending paths (rest a)) :
    Extending paths (program >>= rest) := by
  intro w
  have hfirst := h w
  rw [run_bind]
  cases hrun : run program w with
  | mk outcome next =>
    rw [hrun] at hfirst
    cases outcome with
    | error fault => exact hfirst
    | ok a => exact hfirst.trans (hrest a next)

theorem Extending.change {f : FileTree → Path → Except PathFault FileTree} {p : Path}
    (h : ∀ (w : World) files, f w.files (w.directory.join p) = .ok files →
      w.Extends paths { w with files := files }) : Extending paths (Session.change f p) := by
  intro w
  rw [run_change]
  cases hchange : f w.files (w.directory.join p) with
  | error fault => exact .refl w
  | ok files => exact h w files hchange

theorem makeDirectory_extending (p : Path) :
    Extending paths (Host.makeDirectory p : Session _) := by
  apply Extending.change
  intro w files hmade
  have hextends := FileTree.makeDirectory_extends hmade
  exact ⟨rfl, hextends.directories, fun location _ => hextends.files location id⟩

theorem Extending.closed : Closed (@Extending paths) where
  pure a := (Observes.pure a).extending
  throw fault := (Observes.throw fault).extending
  look p := (Observes.look p).extending
  makeDirectory := makeDirectory_extending
  bind := Extending.bind

/-- A change of the file at a path touches this path. -/
theorem extends_of_place {w : World} {files : FileTree} {p : Path} {location : Location}
    (hleads : w.LeadsTo p location) (h : w.files.Extends (· = location) files) :
    w.Extends [p] { w with files := files } := by
  refine ⟨rfl, h.directories, fun place huntouched => ?_⟩
  apply h.files
  rintro rfl
  exact huntouched ⟨p, List.mem_singleton_self p, h.locate hleads⟩

theorem openLog_extending (p : Path) (verbose : Bool) :
    Extending [p] (Host.openLog p verbose : Session _) := by
  have hset : Extending [p] (modify fun world => { world with verbose := verbose } : Session Unit) :=
    fun w => ⟨rfl, fun _ => id, fun _ _ => rfl⟩
  apply hset.bind
  intro _
  apply Extending.change
  intro w files htouched
  obtain ⟨location, hleads, hextends⟩ := FileTree.touch_extends htouched
  exact extends_of_place hleads hextends

end Session

namespace Files

open Session (Extending Observes)

variable {w after : World} {p : Path} {text : String}

theorem ensureDirectory_extending (paths : List Path) (p : Path) :
    Extending paths (ensureDirectory p : Session Unit) :=
  ensureDirectory_of_closed Extending.closed p

/-- A file that has been written holds the text, and no other file has been touched. -/
theorem write_inv (h : Session.run (write p text) w = (.ok (), after)) :
    w.Extends [p] after ∧ after.Holds p text := by
  rw [run_write] at h
  cases hwrite : w.files.write (w.directory.join p) text with
  | error fault => simp [hwrite] at h
  | ok files =>
    rw [hwrite] at h
    obtain rfl : { w with files := files } = after := congrArg Prod.snd h
    obtain ⟨location, hleads, hnode, hextends⟩ := FileTree.write_extends hwrite
    exact ⟨Session.extends_of_place hleads hextends, location, hextends.locate hleads, hnode⟩

end Files

end MapLayers
