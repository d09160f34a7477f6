import MapLayers.Files.Host
import MapLayers.Proofs.Results

/-!
# Runs of programs over files

A program in memory runs step by step. Programs that only look at files and add to the log have an outcome
that follows from what they see, and see the same afterwards. For programs that change files as well, the
log plays no part: worlds that differ in their logs alone stay so.
-/

namespace MapLayers

open Result (Succeeds)

/-- What lies at a path, seen from the working directory. -/
abbrev View := Path → Except PathFault FileNode

namespace World

def view (w : World) : View := fun p => w.files.look (w.directory.join p)

/-- Worlds that differ in their logs at most. -/
structure SameFiles (a b : World) : Prop where
  files : a.files = b.files
  directory : a.directory = b.directory

namespace SameFiles

variable {a b c : World}

theorem refl (a : World) : SameFiles a a := ⟨rfl, rfl⟩

theorem symm (h : SameFiles a b) : SameFiles b a := ⟨h.files.symm, h.directory.symm⟩

theorem trans (hab : SameFiles a b) (hbc : SameFiles b c) : SameFiles a c :=
  ⟨hab.files.trans hbc.files, hab.directory.trans hbc.directory⟩

theorem view_eq (h : SameFiles a b) : a.view = b.view := by
  unfold view
  rw [h.files, h.directory]

end SameFiles

end World

namespace Session

variable {α β : Type} {w : World}

@[simp] theorem run_pure (a : α) (w : World) : run (pure a) w = (.ok a, w) := rfl

@[simp] theorem run_throw (fault : Fault) (w : World) :
    run (throw fault : Session α) w = (.error fault, w) := rfl

theorem run_bind (x : Session α) (f : α → Session β) (w : World) :
    run (x >>= f) w = match run x w with
      | (.ok a, next) => run (f a) next
      | (.error fault, next) => (.error fault, next) := by
  unfold run ExceptT.run StateT.run
  simp only [bind, ExceptT.bind, ExceptT.mk, StateT.bind, ExceptT.bindCont]
  cases x w with
  | mk outcome next => cases outcome <;> rfl

theorem run_bind_of_ok {x : Session α} {f : α → Session β} {a : α} {next : World}
    (h : run x w = (.ok a, next)) : run (x >>= f) w = run (f a) next := by
  rw [run_bind, h]

theorem run_bind_of_error {x : Session α} {f : α → Session β} {fault : Fault} {next : World}
    (h : run x w = (.error fault, next)) : run (x >>= f) w = (.error fault, next) := by
  rw [run_bind, h]

/-- A run that ends well has ended each of its steps well. -/
theorem run_bind_eq_ok_iff {x : Session α} {f : α → Session β} {b : β} {after : World} :
    run (x >>= f) w = (.ok b, after) ↔
      ∃ a next, run x w = (.ok a, next) ∧ run (f a) next = (.ok b, after) := by
  rw [run_bind]
  cases run x w with
  | mk outcome next =>
    cases outcome with
    | ok a =>
      constructor
      · intro h
        exact ⟨a, next, rfl, h⟩
      · rintro ⟨_, _, hrun, h⟩
        cases hrun
        exact h
    | error fault => simp

theorem run_tryCatch (x : Session α) (handler : Fault → Session α) (w : World) :
    run (tryCatch x handler) w = match run x w with
      | (.ok a, next) => (.ok a, next)
      | (.error fault, next) => run (handler fault) next := by
  unfold run ExceptT.run StateT.run
  simp only [tryCatch, tryCatchThe, MonadExceptOf.tryCatch, ExceptT.tryCatch, ExceptT.mk, bind,
    StateT.bind]
  cases x w with
  | mk outcome next => cases outcome <;> rfl

theorem run_attempt (isExpected : Fault → Bool) (x : Session α) (w : World) :
    run (Files.attempt isExpected x) w = match run x w with
      | (.ok a, next) => (.ok (.ok a), next)
      | (.error fault, next) =>
        (if isExpected fault then .ok (.error fault) else .error fault, next) := by
  rw [Files.attempt, run_tryCatch, run_bind]
  cases run x w with
  | mk outcome next =>
    cases outcome with
    | ok a => rfl
    | error fault => cases h : isExpected fault <;> simp [h]

theorem run_change (f : FileTree → Path → Except PathFault FileTree) (p : Path) (w : World) :
    run (change f p) w = match f w.files (w.directory.join p) with
      | .ok files => (.ok (.ok ()), { w with files := files })
      | .error fault => (.ok (.error fault), w) := by
  rw [change, run_bind, show run get w = (.ok w, w) from rfl]
  dsimp only
  cases f w.files (w.directory.join p) <;> rfl

/-- A program that leaves the files as they are, and whose outcome follows from what it sees. -/
structure Observes (program : Session α) (outcome : View → Result α) : Prop where
  result : ∀ w, (run program w).1 = outcome w.view
  keeps : ∀ w, (run program w).2.SameFiles w

namespace Observes

variable {program : Session α} {outcome : View → Result α}

theorem run_eq (h : Observes program outcome) (w : World) :
    ∃ next, run program w = (outcome w.view, next) ∧ next.SameFiles w :=
  ⟨(run program w).2, Prod.ext (h.result w) rfl, h.keeps w⟩

theorem of_run_ok (h : Observes program outcome) {a : α} {w after : World}
    (hrun : run program w = (.ok a, after)) : outcome w.view = .ok a ∧ after.SameFiles w := by
  have hresult := h.result w
  have hkeeps := h.keeps w
  rw [hrun] at hresult hkeeps
  exact ⟨hresult.symm, hkeeps⟩

theorem congr {other : View → Result α} (h : Observes program outcome)
    (hsame : ∀ view, outcome view = other view) : Observes program other :=
  ⟨fun w => (h.result w).trans (hsame w.view), h.keeps⟩

theorem pure (a : α) : Observes (pure a) fun _ => .ok a :=
  ⟨fun _ => rfl, fun w => .refl w⟩

theorem throw (fault : Fault) : Observes (throw fault : Session α) fun _ => .error fault :=
  ⟨fun _ => rfl, fun w => .refl w⟩

theorem look (p : Path) : Observes (Host.look p) fun view => .ok (view p) :=
  ⟨fun _ => rfl, fun w => .refl w⟩

theorem record (entry : LogRecord) : Observes (Host.record entry) fun _ => .ok () := by
  refine ⟨fun _ => rfl, fun w => ?_⟩
  show (if entry.level = .debug && !w.verbose then w
    else { w with log := w.log ++ [entry] }).SameFiles w
  split
  · exact .refl w
  · exact ⟨rfl, rfl⟩

theorem ofResult (r : Result α) : Observes (Files.ofResult r) fun _ => r := by
  cases r with
  | ok a => exact .pure a
  | error fault => exact .throw fault

theorem demand (r : Except PathFault α) :
    Observes (Files.demand r) fun _ => r.mapError PathFault.toFault := by
  cases r with
  | ok a => exact .pure a
  | error fault => exact .throw _

theorem bind {rest : α → Session β} {after : α → View → Result β}
    (h : Observes program outcome) (hrest : ∀ a, Observes (rest a) (after a)) :
    Observes (program >>= rest) fun view => outcome view >>= fun a => after a view := by
  constructor
  · intro w
    obtain ⟨next, hrun, hsame⟩ := h.run_eq w
    cases hvalue : outcome w.view with
    | error fault =>
      rw [run_bind_of_error (hrun.trans (by rw [hvalue]))]
      rfl
    | ok a =>
      rw [run_bind_of_ok (hrun.trans (by rw [hvalue])), (hrest a).result, hsame.view_eq]
      rfl
  · intro w
    obtain ⟨next, hrun, hsame⟩ := h.run_eq w
    cases hvalue : outcome w.view with
    | error fault =>
      rw [run_bind_of_error (hrun.trans (by rw [hvalue]))]
      exact hsame
    | ok a =>
      rw [run_bind_of_ok (hrun.trans (by rw [hvalue]))]
      exact ((hrest a).keeps next).trans hsame

/-- After a program that only looks, the rest goes on from a world that it cannot tell apart. -/
theorem run_bind_ok (h : Observes program outcome) {a : α} {w : World}
    (hvalue : outcome w.view = .ok a) (rest : α → Session β) :
    ∃ next, run (program >>= rest) w = run (rest a) next ∧ next.SameFiles w := by
  obtain ⟨next, hrun, hsame⟩ := h.run_eq w
  exact ⟨next, run_bind_of_ok (hrun.trans (by rw [hvalue])), hsame⟩

theorem mapM {f : α → Session β} {g : View → α → Result β} (h : ∀ a, Observes (f a) (g · a))
    (xs : List α) : Observes (xs.mapM f) fun view => xs.mapM (g view) := by
  induction xs with
  | nil => exact .pure []
  | cons x rest ih =>
    simp only [List.mapM_cons]
    exact (h x).bind fun y => ih.bind fun ys => .pure (y :: ys)

theorem forM {f : α → Session Unit} (h : ∀ a, Observes (f a) fun _ => .ok ()) (xs : List α) :
    Observes (xs.forM f) fun _ => .ok () := by
  induction xs with
  | nil => exact .pure ()
  | cons x rest ih => exact (h x).bind fun _ => ih

/-- An expected fault of the program becomes its outcome, any other one is passed on. -/
theorem attempt (h : Observes program outcome) (isExpected : Fault → Bool) :
    Observes (Files.attempt isExpected program) fun view => match outcome view with
      | .ok a => .ok (.ok a)
      | .error fault => if isExpected fault then .ok (.error fault) else .error fault := by
  have hrun (w : World) : ∃ next, run (Files.attempt isExpected program) w =
      (match outcome w.view with
        | .ok a => .ok (.ok a)
        | .error fault => if isExpected fault then .ok (.error fault) else .error fault, next) ∧
      next.SameFiles w := by
    obtain ⟨next, hrun, hsame⟩ := h.run_eq w
    refine ⟨next, ?_, hsame⟩
    rw [run_attempt, hrun]
    cases outcome w.view <;> rfl
  constructor
  · intro w
    obtain ⟨next, hnext, -⟩ := hrun w
    rw [hnext]
  · intro w
    obtain ⟨next, hnext, hsame⟩ := hrun w
    rw [hnext]
    exact hsame

end Observes

/-- A program that leaves the files as they are. -/
def KeepsFiles (program : Session α) : Prop := ∀ w, (run program w).2.SameFiles w

theorem Observes.keepsFiles {program : Session α} {outcome : View → Result α}
    (h : Observes program outcome) : KeepsFiles program := h.keeps

theorem workingDirectory_keepsFiles : KeepsFiles (Host.workingDirectory : Session Path) :=
  fun w => .refl w

theorem KeepsFiles.bind {program : Session α} {rest : α → Session β} (h : KeepsFiles program)
    (hrest : ∀ a, KeepsFiles (rest a)) : KeepsFiles (program >>= rest) := by
  intro w
  have hfirst := h w
  rw [run_bind]
  cases hrun : run program w with
  | mk outcome next =>
    rw [hrun] at hfirst
    cases outcome with
    | error fault => exact hfirst
    | ok a => exact (hrest a next).trans hfirst

/-- A program for which the log plays no part. -/
structure IgnoresLog (program : Session α) : Prop where
  agrees : ∀ {a b : World}, a.SameFiles b →
    (run program a).1 = (run program b).1 ∧ (run program a).2.SameFiles (run program b).2

theorem Observes.ignoresLog {program : Session α} {outcome : View → Result α}
    (h : Observes program outcome) : IgnoresLog program := by
  refine ⟨fun {a b} hsame => ⟨?_, ((h.keeps a).trans hsame).trans (h.keeps b).symm⟩⟩
  rw [h.result, h.result, hsame.view_eq]

namespace IgnoresLog

variable {program : Session α}

theorem bind {rest : α → Session β} (h : IgnoresLog program) (hrest : ∀ a, IgnoresLog (rest a)) :
    IgnoresLog (program >>= rest) := by
  refine ⟨fun {a b} hsame => ?_⟩
  obtain ⟨hvalue, hnext⟩ := h.agrees hsame
  rw [run_bind, run_bind]
  cases hleft : run program a with
  | mk left after =>
    cases hright : run program b with
    | mk right behind =>
      rw [hleft, hright] at hvalue hnext
      obtain rfl : left = right := hvalue
      cases left with
      | ok value => exact (hrest value).agrees hnext
      | error fault => exact ⟨rfl, hnext⟩

theorem change (f : FileTree → Path → Except PathFault FileTree) (p : Path) :
    IgnoresLog (Session.change f p) := by
  refine ⟨fun {a b} hsame => ?_⟩
  rw [run_change, run_change, hsame.files, hsame.directory]
  cases f b.files (b.directory.join p) with
  | ok files => exact ⟨rfl, rfl, rfl⟩
  | error fault => exact ⟨rfl, hsame⟩

end IgnoresLog

/-- A property that single accesses have, and that programs have if their steps do. -/
structure Closed (property : {α : Type} → Session α → Prop) : Prop where
  pure : ∀ {α : Type} (a : α), property (Pure.pure a)
  throw : ∀ {α : Type} (fault : Fault), property (throw fault : Session α)
  look : ∀ p, property (Host.look p)
  makeDirectory : ∀ p, property (Host.makeDirectory p)
  bind : ∀ {α β : Type} {program : Session α} {rest : α → Session β}, property program →
    (∀ a, property (rest a)) → property (program >>= rest)

namespace Closed

variable {property : {α : Type} → Session α → Prop}

theorem demand (h : Closed property) (r : Except PathFault α) :
    property (Files.demand r : Session α) := by
  cases r with
  | ok a => exact h.pure a
  | error fault => exact h.throw _

theorem forM {f : α → Session Unit} (h : Closed property) (hf : ∀ a, property (f a)) (xs : List α) :
    property (xs.forM f) := by
  induction xs with
  | nil => exact h.pure ()
  | cons x rest ih => exact h.bind (hf x) fun _ => ih

end Closed

theorem IgnoresLog.closed : Closed @IgnoresLog where
  pure a := (Observes.pure a).ignoresLog
  throw fault := (Observes.throw fault).ignoresLog
  look p := (Observes.look p).ignoresLog
  makeDirectory p := .change FileTree.makeDirectory p
  bind := IgnoresLog.bind

end Session

namespace View

/-- The text of a file. -/
def readText (view : View) (p : Path) : Result String :=
  match view p with
  | .ok (.file text) => .ok text
  | .ok .directory => .error PathFault.directory.toFault
  | .ok .binary => .error (.operation .decoding)
  | .error fault => .error fault.toFault

/-- The document in a file. -/
def readJson [Platform] (view : View) (p : Path) : Result Json :=
  view.readText p >>= Platform.readDocument

/-- Whether there is anything at a path. -/
def isThere (view : View) (p : Path) : Result Bool :=
  match view p with
  | .ok _ => .ok true
  | .error fault => if fault.isAbsence then .ok false else .error fault.toFault

end View

namespace Files

open Session (Observes IgnoresLog)

theorem run_readText (p : Path) (w : World) :
    Session.run (readText p) w = (w.view.readText p, w) := by
  have hlook : Session.run (Host.look p) w = (.ok (w.view p), w) := rfl
  unfold View.readText
  rw [readText, Session.run_bind_of_ok hlook]
  cases w.view p with
  | ok node => cases node <;> rfl
  | error fault => rfl

theorem observes_readText (p : Path) :
    Observes (readText p : Session String) fun view => view.readText p := by
  constructor
  · intro w
    rw [run_readText]
  · intro w
    rw [run_readText]
    exact .refl w

theorem observes_readJson [Platform] (p : Path) :
    Observes (readJson p : Session Json) fun view => view.readJson p :=
  (observes_readText p).bind fun text => .ofResult (Platform.readDocument text)

theorem observes_isThere (p : Path) :
    Observes (isThere p : Session Bool) fun view => view.isThere p := by
  refine (Observes.look p).bind fun found => (?_ : Observes _ fun _ => match found with
    | .ok _ => .ok true
    | .error fault => if fault.isAbsence then .ok false else .error fault.toFault)
  cases found with
  | ok node => exact .pure true
  | error fault =>
    dsimp only
    split
    · exact .pure false
    · exact .throw _

section

variable {property : {α : Type} → Session α → Prop}

theorem isDirectory_of_closed (h : Session.Closed property) (p : Path) :
    property (isDirectory p : Session Bool) := by
  refine h.bind (h.look p) fun found => ?_
  split
  · exact h.pure true
  · exact h.pure false

theorem excuse_of_closed (h : Session.Closed property) (p : Path) (fault : PathFault) :
    property (excuse p fault : Session Unit) := by
  refine h.bind (isDirectory_of_closed h p) fun found => ?_
  split
  · exact h.pure ()
  · exact h.throw _

theorem ensureParts_of_closed (h : Session.Closed property) (root : PathRoot)
    (parts : List String) : property (ensureParts root parts : Session Unit) := by
  induction parts with
  | nil =>
    refine h.bind (h.makeDirectory _) fun made => ?_
    split
    · exact h.pure ()
    · exact excuse_of_closed h _ _
  | cons name above ih =>
    refine h.bind (h.makeDirectory _) fun made => ?_
    split
    · exact h.pure ()
    · refine h.bind ih fun _ => h.bind (h.makeDirectory _) fun made => ?_
      split
      · exact h.pure ()
      · exact excuse_of_closed h _ _
    · exact excuse_of_closed h _ _

/-- What holds of every access that makes directories holds of making all of them. -/
theorem ensureDirectory_of_closed (h : Session.Closed property) (p : Path) :
    property (ensureDirectory p : Session Unit) :=
  ensureParts_of_closed h p.root p.parts.reverse

end

theorem ensureDirectory_ignoresLog (p : Path) : IgnoresLog (ensureDirectory p : Session Unit) :=
  ensureDirectory_of_closed IgnoresLog.closed p

theorem run_write (p : Path) (text : String) (w : World) :
    Session.run (write p text) w = match w.files.write (w.directory.join p) text with
      | .ok files => (.ok (), { w with files := files })
      | .error fault => (.error fault.toFault, w) := by
  have hwrite : (write p text : Session Unit) =
      Session.change (fun files p => files.write p text) p >>= demand := rfl
  rw [hwrite, Session.run_bind, Session.run_change]
  cases w.files.write (w.directory.join p) text <;> rfl

/-- Whether a text can be written, and what else happens, does not depend on the text. -/
theorem write_outcome (p : Path) (text other : String) (w : World) :
    (Session.run (write p text) w).1 = (Session.run (write p other) w).1 := by
  rw [run_write, run_write]
  unfold FileTree.write
  cases w.files.locate (w.directory.join p) with
  | error fault => rfl
  | ok location =>
    dsimp only [bind, Except.bind]
    cases w.files.node? location with
    | none => rfl
    | some node => cases node <;> rfl

theorem write_ignoresLog (p : Path) (text : String) :
    IgnoresLog (write p text : Session Unit) :=
  IgnoresLog.bind (.change _ _) fun made => (Observes.demand made).ignoresLog

end Files

end MapLayers
