import MapLayers.Files.Tree
import MapLayers.Proofs.Entries
import MapLayers.Proofs.Results

/-!
# Walks through file trees

A path is followed name by name, and every name on the way has to be a directory. So a walk that never
climbs above its start depends only on what lies below the start, and a walk that has come to its end
comes to the same end in every tree that has kept the directories.
-/

namespace MapLayers

namespace Path

/-- A walk with the given parts, which starts at the given depth, never climbs above depth zero. -/
def staysBelow (depth : Nat) : List String → Bool
  | [] => true
  | part :: rest =>
    if part = ".." then 0 < depth && staysBelow (depth - 1) rest else staysBelow (depth + 1) rest

theorem join_parts (base : Path) {p : Path} (h : p.isAbsolute = false) :
    base.join p = ⟨base.root, base.parts ++ p.parts⟩ := by
  simp [join, h]

theorem join_join (base directory : Path) {p : Path} (h : p.isAbsolute = false) :
    base.join (directory.join p) = (base.join directory).join p := by
  rw [join_parts _ h, join_parts _ h]
  by_cases hdirectory : directory.isAbsolute = true
  · simp_all [join, isAbsolute]
  · simp_all [join, isAbsolute, List.append_assoc]

theorem climb_append {base names : List String} {part : String} (h : part = ".." → names ≠ []) :
    climb (base ++ names) part = base ++ climb names part := by
  unfold climb
  split
  · next hup => exact List.dropLast_append_of_ne_nil (h hup)
  · exact List.append_assoc base names [part]

end Path

namespace FileTree

/-- What lies at a location, or that there is nothing. -/
def found (t : FileTree) (location : Location) : Except PathFault FileNode :=
  match t.node? location with
  | some node => .ok node
  | none => .error .missing

/-- Where the parts of an absolute path lead, however long it is. -/
def place (t : FileTree) (parts : List String) : Except PathFault Location := parts.foldlM t.step []

/-- What lies at a location below the end of an absolute path. -/
def lookBelow (t : FileTree) (parts : List String) (location : Location) :
    Except PathFault FileNode := do
  let base ← t.place parts
  t.found (base ++ location)

/-- The file at a location, with what it holds. -/
def file? (t : FileTree) (location : Location) : Option FileNode :=
  (t.node? location).filter (· ≠ .directory)

theorem file?_eq_some_iff {t : FileTree} {location : Location} {text : String} :
    t.file? location = some (.file text) ↔ t.node? location = some (.file text) := by
  unfold file?
  rw [Option.filter_eq_some_iff]
  simp

theorem locate_eq (t : FileTree) (p : Path) :
    t.locate p = if p.holdsNul then .error .unnameable
      else if maxPath < p.text.utf8ByteSize then .error .refused else t.place p.parts := rfl

theorem look_eq (t : FileTree) (p : Path) : t.look p = t.locate p >>= t.found := rfl

@[simp] theorem found_eq_iff {a b : FileTree} {here there : Location} :
    a.found here = b.found there ↔ a.node? here = b.node? there := by
  unfold found
  cases a.node? here <;> cases b.node? there <;> simp

theorem node?_set (t : FileTree) {place : Location} (hplace : place ≠ []) (node : FileNode)
    (location : Location) :
    (t.set place node).node? location = if place = location then some node else t.node? location := by
  unfold node? set
  by_cases hroot : location = []
  · rw [if_pos hroot, if_pos hroot, if_neg (hroot ▸ hplace)]
  · rw [if_neg hroot, if_neg hroot, Entries.get?_set]
    by_cases hsame : place = location <;> simp [hsame]

/-- The same lies at the end of an absolute path and everywhere below it. -/
def AgreeBelow (a b : FileTree) (parts : List String) : Prop :=
  ∀ location, a.lookBelow parts location = b.lookBelow parts location

variable {a b : FileTree} {base other : Location}

theorem walk_of_nothing {t : FileTree} {fault : PathFault} (h : t.found base = .error fault)
    (parts : List String) : (parts.foldlM t.step base >>= t.found) = .error fault := by
  cases parts with
  | nil => exact h
  | cons part rest =>
    unfold found at h
    rw [List.foldlM_cons, step]
    split at h
    · simp at h
    · next hmissing =>
      rw [hmissing]
      exact h

/-- One part of a walk that stays below its start: it fails in both trees alike, or leads on. -/
theorem step_congr (h : ∀ names, a.node? (base ++ names) = b.node? (other ++ names))
    {names : Location} {part : String} (hup : part = ".." → names ≠ []) :
    (∃ fault, a.step (base ++ names) part = .error fault ∧
      b.step (other ++ names) part = .error fault) ∨
    (a.step (base ++ names) part = .ok (base ++ Path.climb names part) ∧
      b.step (other ++ names) part = .ok (other ++ Path.climb names part)) := by
  unfold step
  rw [h names, Path.climb_append hup, Path.climb_append hup]
  cases b.node? (other ++ names) with
  | none => exact .inl ⟨_, rfl, rfl⟩
  | some node =>
    cases node with
    | file text => exact .inl ⟨_, rfl, rfl⟩
    | binary => exact .inl ⟨_, rfl, rfl⟩
    | directory =>
      dsimp only
      split
      · exact .inl ⟨_, rfl, rfl⟩
      · exact .inr ⟨rfl, rfl⟩

/-- A walk that stays below its start finds the same in trees with the same below their starts. The
induction is on the parts still to go, with the names walked so far. -/
theorem walk_congr (h : ∀ names, a.node? (base ++ names) = b.node? (other ++ names))
    {parts : List String} {names : Location}
    (hstays : Path.staysBelow names.length parts = true) :
    (parts.foldlM a.step (base ++ names) >>= a.found) =
      (parts.foldlM b.step (other ++ names) >>= b.found) := by
  induction parts generalizing names with
  | nil =>
    simp only [List.foldlM_nil, pure_bind]
    exact found_eq_iff.mpr (h names)
  | cons part rest ih =>
    have hup : part = ".." → names ≠ [] := by
      rintro rfl rfl
      simp [Path.staysBelow] at hstays
    have hrest : Path.staysBelow (Path.climb names part).length rest = true := by
      rw [Path.staysBelow] at hstays
      unfold Path.climb
      split at hstays
      · next hparent =>
        rw [if_pos hparent, List.length_dropLast]
        simp only [Bool.and_eq_true] at hstays
        exact hstays.2
      · next hname =>
        rw [if_neg hname, List.length_append]
        exact hstays
    rw [List.foldlM_cons, List.foldlM_cons]
    rcases step_congr h hup with ⟨fault, ha, hb⟩ | ⟨ha, hb⟩
    · rw [ha, hb]
      rfl
    · rw [ha, hb]
      exact ih hrest

theorem place_append (t : FileTree) (parts more : List String) :
    (t.place (parts ++ more) >>= t.found) =
      (t.place parts >>= fun base => more.foldlM t.step base >>= t.found) := by
  rw [place, List.foldlM_append, bind_assoc]
  rfl

/-- A path that stays below a directory finds the same in trees that agree there. -/
theorem AgreeBelow.walk {parts : List String} (h : a.AgreeBelow b parts) {more : List String}
    (hstays : Path.staysBelow 0 more = true) :
    (a.place (parts ++ more) >>= a.found) = (b.place (parts ++ more) >>= b.found) := by
  have hhere : a.lookBelow parts [] = b.lookBelow parts [] := h []
  have hbelow (names : Location) : a.lookBelow parts names = b.lookBelow parts names := h names
  unfold lookBelow at hhere hbelow
  rw [place_append, place_append]
  cases ha : a.place parts with
  | error fault =>
    rw [ha] at hhere
    cases hb : b.place parts with
    | error _ =>
      rw [hb] at hhere
      exact hhere
    | ok other =>
      rw [hb] at hhere
      have hnothing : b.found other = .error fault := by
        simpa [bind, Except.bind] using hhere.symm
      exact (walk_of_nothing hnothing more).symm
  | ok base =>
    rw [ha] at hhere hbelow
    cases hb : b.place parts with
    | error fault =>
      rw [hb] at hhere
      have hnothing : a.found base = .error fault := by
        simpa [bind, Except.bind] using hhere
      exact walk_of_nothing hnothing more
    | ok other =>
      rw [hb] at hbelow
      have hnodes (names : Location) : a.node? (base ++ names) = b.node? (other ++ names) :=
        found_eq_iff.mp (hbelow names)
      have hwalk : (more.foldlM a.step (base ++ []) >>= a.found) =
          (more.foldlM b.step (other ++ []) >>= b.found) := walk_congr hnodes hstays
      rw [List.append_nil, List.append_nil] at hwalk
      exact hwalk

theorem AgreeBelow.look_eq {directory : Path} (h : a.AgreeBelow b directory.parts) {p : Path}
    (hrelative : p.isAbsolute = false) (hstays : Path.staysBelow 0 p.parts = true) :
    a.look (directory.join p) = b.look (directory.join p) := by
  rw [FileTree.look_eq, FileTree.look_eq, locate_eq, locate_eq]
  split
  · rfl
  · split
    · rfl
    · rw [Path.join_parts _ hrelative]
      exact h.walk hstays

/-- The directories of the first tree are there in the second one, and files hold what they held except at
some locations. -/
structure Extends (touched : Location → Prop) (a b : FileTree) : Prop where
  directories : ∀ location, a.node? location = some .directory → b.node? location = some .directory
  files : ∀ location, ¬touched location → b.file? location = a.file? location

variable {touched : Location → Prop} {t next : FileTree} {p : Path} {location : Location}

theorem Extends.step (h : Extends touched a b) {start : Location} {part : String}
    (hstep : a.step start part = .ok location) : b.step start part = .ok location := by
  have hdirectory : a.node? start = some .directory := by
    unfold FileTree.step at hstep
    split at hstep
    · simp at hstep
    · simp at hstep
    · simp at hstep
    · assumption
  rw [← hstep, FileTree.step, FileTree.step, hdirectory, h.directories start hdirectory]

theorem Extends.walk (h : Extends touched a b) {start : Location} {parts : List String}
    (hwalk : parts.foldlM a.step start = .ok location) :
    parts.foldlM b.step start = .ok location := by
  induction parts generalizing start with
  | nil => exact hwalk
  | cons part rest ih =>
    rw [List.foldlM_cons, Result.bind_eq_ok_iff] at hwalk ⊢
    obtain ⟨middle, hfirst, hrest⟩ := hwalk
    exact ⟨middle, h.step hfirst, ih hrest⟩

theorem Extends.locate (h : Extends touched a b) (hlocate : a.locate p = .ok location) :
    b.locate p = .ok location := by
  rw [locate_eq] at hlocate ⊢
  split at hlocate
  · simp at hlocate
  · next hnul =>
    rw [if_neg hnul]
    split at hlocate
    · simp at hlocate
    · next hfits =>
      rw [if_neg hfits]
      exact h.walk hlocate

theorem extends_set (h : t.node? location ≠ some .directory) (node : FileNode) :
    Extends (· = location) t (t.set location node) := by
  have hroot : location ≠ [] := by
    rintro rfl
    exact h rfl
  constructor
  · intro place hplace
    have hother : location ≠ place := by
      rintro rfl
      exact h hplace
    rw [node?_set t hroot, if_neg hother, hplace]
  · intro place hplace
    have hother : location ≠ place := fun hsame => hplace hsame.symm
    rw [file?, file?, node?_set t hroot, if_neg hother]

theorem makeDirectory_extends (h : t.makeDirectory p = .ok next) :
    Extends (fun _ => False) t next := by
  unfold makeDirectory at h
  rw [Result.bind_eq_ok_iff] at h
  obtain ⟨location, -, h⟩ := h
  split at h
  · exact absurd h Result.throw_not_ok
  · next hnone =>
    obtain rfl : t.set location .directory = next := Except.ok.inj h
    have hset := extends_set (t := t) (by rw [hnone]; simp) .directory
    refine ⟨hset.directories, fun place _ => ?_⟩
    by_cases hsame : place = location
    · have hroot : location ≠ [] := by
        rintro rfl
        simp [node?] at hnone
      rw [file?, file?, node?_set t hroot, hsame, if_pos rfl, hnone]
      rfl
    · exact hset.files place hsame

theorem write_extends {text : String} (h : t.write p text = .ok next) :
    ∃ location, t.locate p = .ok location ∧ next.node? location = some (.file text) ∧
      Extends (· = location) t next := by
  unfold write at h
  rw [Result.bind_eq_ok_iff] at h
  obtain ⟨location, hlocate, h⟩ := h
  split at h
  · exact absurd h Result.throw_not_ok
  · next hnode =>
    obtain rfl : t.set location (.file text) = next := Except.ok.inj h
    have hroot : location ≠ [] := by
      rintro rfl
      exact hnode rfl
    refine ⟨location, hlocate, ?_, extends_set hnode _⟩
    rw [node?_set t hroot, if_pos rfl]

theorem touch_extends (h : t.touch p = .ok next) :
    ∃ location, t.locate p = .ok location ∧ Extends (· = location) t next := by
  unfold touch at h
  rw [Result.bind_eq_ok_iff] at h
  obtain ⟨location, hlocate, h⟩ := h
  refine ⟨location, hlocate, ?_⟩
  split at h
  · exact absurd h Result.throw_not_ok
  · rw [← Except.ok.inj h]
    exact ⟨fun _ => id, fun _ _ => rfl⟩
  · next hnone =>
    rw [← Except.ok.inj h]
    exact extends_set (by rw [hnone]; simp) _

end FileTree

end MapLayers
