import MapLayers.CommandLine.Run
import MapLayers.Proofs.FileEffects

/-!
# Preparations of a run

A run reads its settings, makes directories and opens its log before it looks at the map document. These
preparations touch no other file than the log, and no text comes up by them that has not been there, but for
the empty text of a new log.
-/

namespace MapLayers

open Session (Extending Observes)

/-- Texts with which no reading stops at half of a surrogate pair. -/
def World.Paired [Platform] (w : World) : Prop :=
  ∀ location text, w.files.node? location = some (.file text) →
    Platform.readDocument text ≠ .error (.operation .unpaired)

/-- The texts of the second world are empty or have been there in the first one. -/
def World.KeepsTexts (a b : World) : Prop :=
  ∀ location text, b.files.node? location = some (.file text) →
    text = "" ∨ a.files.node? location = some (.file text)

namespace World.KeepsTexts

variable {a b c : World}

theorem of_sameFiles (h : b.SameFiles a) : a.KeepsTexts b := by
  intro location text htext
  rw [h.files] at htext
  exact .inr htext

theorem trans (hab : a.KeepsTexts b) (hbc : b.KeepsTexts c) : a.KeepsTexts c := by
  intro location text htext
  rcases hbc location text htext with hempty | hkept
  · exact .inl hempty
  · exact hab location text hkept

theorem paired [Platform] (h : a.KeepsTexts b) (hpaired : a.Paired) : b.Paired := by
  intro location text htext
  rcases h location text htext with rfl | hkept
  · have hread : Platform.readDocument "" = .error (.operation .jsonText) := rfl
    simp [hread]
  · exact hpaired location text hkept

end World.KeepsTexts

namespace Session

variable {α β : Type}

def KeepsTexts {α : Type} (program : Session α) : Prop := ∀ w : World, w.KeepsTexts (run program w).2

theorem Observes.keepsTexts {program : Session α} {outcome : View → Result α}
    (h : Observes program outcome) : KeepsTexts program :=
  fun w => .of_sameFiles (h.keeps w)

theorem KeepsTexts.bind {program : Session α} {rest : α → Session β} (h : KeepsTexts program)
    (hrest : ∀ a, KeepsTexts (rest a)) : KeepsTexts (program >>= rest) := by
  intro w
  have hfirst := h w
  rw [run_bind]
  cases hrun : run program w with
  | mk outcome next =>
    rw [hrun] at hfirst
    cases outcome with
    | error fault => exact hfirst
    | ok a => exact hfirst.trans (hrest a next)

/-- A change that sets a node at a free place at most, and no text there but the empty one. -/
theorem KeepsTexts.change {f : FileTree → Path → Except PathFault FileTree} {p : Path}
    (h : ∀ t q next, f t q = .ok next → next = t ∨ ∃ place node, t.node? place = none ∧
      next = t.set place node ∧ ∀ text, node = .file text → text = "") :
    KeepsTexts (Session.change f p) := by
  intro w
  rw [run_change]
  cases hchange : f w.files (w.directory.join p) with
  | error fault => exact .of_sameFiles (.refl w)
  | ok files =>
    rcases h _ _ _ hchange with rfl | ⟨place, node, hfree, rfl, hempty⟩
    · exact .of_sameFiles ⟨rfl, rfl⟩
    · intro location text htext
      have hroot : place ≠ [] := by
        rintro rfl
        simp [FileTree.node?] at hfree
      rw [FileTree.node?_set _ hroot] at htext
      split at htext
      · exact .inl (hempty text (Option.some.inj htext))
      · exact .inr htext

theorem makeDirectory_keepsTexts (p : Path) : KeepsTexts (Host.makeDirectory p : Session _) := by
  apply KeepsTexts.change
  intro t q next hmade
  unfold FileTree.makeDirectory at hmade
  rw [Result.bind_eq_ok_iff] at hmade
  obtain ⟨location, -, hmade⟩ := hmade
  split at hmade
  · exact absurd hmade Result.throw_not_ok
  · next hnone => exact .inr ⟨location, .directory, hnone, (Except.ok.inj hmade).symm, by simp⟩

theorem openLog_keepsTexts (p : Path) (verbose : Bool) :
    KeepsTexts (Host.openLog p verbose : Session _) := by
  have hset : KeepsTexts (modify fun world => { world with verbose := verbose } : Session Unit) :=
    fun w => .of_sameFiles ⟨rfl, rfl⟩
  apply hset.bind
  intro _
  apply KeepsTexts.change
  intro t q next htouched
  unfold FileTree.touch at htouched
  rw [Result.bind_eq_ok_iff] at htouched
  obtain ⟨location, -, htouched⟩ := htouched
  split at htouched
  · exact absurd htouched Result.throw_not_ok
  · exact .inl (Except.ok.inj htouched).symm
  · next hnone => exact .inr ⟨location, .file "", hnone, (Except.ok.inj htouched).symm, by simp⟩

theorem KeepsTexts.closed : Closed @KeepsTexts where
  pure a := (Observes.pure a).keepsTexts
  throw fault := (Observes.throw fault).keepsTexts
  look p := (Observes.look p).keepsTexts
  makeDirectory := makeDirectory_keepsTexts
  bind := KeepsTexts.bind

end Session

theorem Settings.load_keepsFiles [Platform] (p : Path) :
    Session.KeepsFiles (Settings.load p : Session Settings) := by
  apply Session.workingDirectory_keepsFiles.bind
  intro directory
  apply (Files.observes_isThere _).keepsFiles.bind
  intro found
  have hread := (Files.observes_readText (directory.join p).collapsed).bind fun text =>
    Observes.ofResult (Settings.ofText text (directory.join p).collapsed)
  cases found with
  | true => exact hread.keepsFiles
  | false => exact (Observes.throw _).keepsFiles

namespace CommandLine

def logFile (settings : Settings) : Path := settings.paths.logs.child "mapcompiler.log"

def readSettings [Platform] (config : Option String) : Session Settings :=
  match config with
  | none => do return Settings.defaults (← Host.workingDirectory)
  | some file => Settings.load (Path.ofText file)

/-- The rest of the preparations once the settings have been read. -/
def setUp (verbose : Bool) (settings : Settings) : Session Unit := do
  Files.ensureDirectory settings.paths.logs
  Files.demand (← Host.openLog (logFile settings) verbose)
  settings.buildDirectories.forM Files.ensureDirectory

theorem setUp_of_closed {property : {α : Type} → Session α → Prop} (h : Session.Closed property)
    (verbose : Bool) (settings : Settings)
    (hlog : property (Host.openLog (logFile settings) verbose : Session _)) :
    property (setUp verbose settings) := by
  apply h.bind (Files.ensureDirectory_of_closed h _)
  intro _
  apply h.bind hlog
  intro opened
  apply h.bind (h.demand opened)
  intro _
  exact h.forM (Files.ensureDirectory_of_closed h) _

section

variable [Platform] {settings : Settings} {w after : World}

theorem prepare_eq (args : Arguments) : (prepare args : Session Settings) = do
    let settings ← readSettings args.config
    setUp args.verbose settings
    return settings := by
  unfold prepare readSettings setUp
  cases args.config <;> simp only [bind_assoc, pure_bind, logFile]

theorem readSettings_keepsFiles (config : Option String) : Session.KeepsFiles (readSettings config) := by
  cases config with
  | none => exact Session.workingDirectory_keepsFiles.bind fun _ => (Observes.pure _).keepsFiles
  | some file => exact Settings.load_keepsFiles (Path.ofText file)

/-- Preparations read the settings, and then make directories and open the log. -/
theorem prepare_steps {args : Arguments} (h : Session.run (prepare args) w = (.ok settings, after)) :
    ∃ next, next.SameFiles w ∧ Session.run (setUp args.verbose settings) next = (.ok (), after) := by
  rw [prepare_eq] at h
  obtain ⟨found, next, hread, h⟩ := Session.run_bind_eq_ok_iff.mp h
  obtain ⟨_, last, hset, hreturn⟩ := Session.run_bind_eq_ok_iff.mp h
  obtain ⟨rfl, rfl⟩ : found = settings ∧ last = after := by
    simpa using hreturn
  have hsame := readSettings_keepsFiles args.config w
  rw [hread] at hsame
  exact ⟨next, hsame, hset⟩

theorem prepare_extends {args : Arguments} (h : Session.run (prepare args) w = (.ok settings, after)) :
    w.Extends [logFile settings] after := by
  obtain ⟨next, hsame, hset⟩ := prepare_steps h
  have hextends := setUp_of_closed Extending.closed args.verbose settings
    (Session.openLog_extending _ _) next
  rw [hset] at hextends
  exact hsame.symm.extends.trans hextends

theorem paired_of_prepare {args : Arguments} (hpaired : w.Paired)
    (h : Session.run (prepare args) w = (.ok settings, after)) : after.Paired := by
  obtain ⟨next, hsame, hset⟩ := prepare_steps h
  have hkeeps := setUp_of_closed Session.KeepsTexts.closed args.verbose settings
    (Session.openLog_keepsTexts _ _) next
  rw [hset] at hkeeps
  exact ((World.KeepsTexts.of_sameFiles hsame).trans hkeeps).paired hpaired

end

end CommandLine

end MapLayers
