import MapLayers.Proofs.CompileRuns
import MapLayers.Proofs.FileEffects
import MapLayers.Proofs.ReadBack
import MapLayers.Proofs.WrittenValues

/-!
# What the compile command leaves behind

The exit code of a compilation and the file at its output path tell the same: descriptors are written
exactly where the map document is there and is not refused, and the exit code is zero exactly if they were
written, with all layers where that is demanded. The file that they are written to is read back as the document
of the compiled map. Apart from that file and the log, all files stay as they were. Texts are sequences of
scalar values, so nothing is said of runs that meet half of a surrogate pair.
-/

namespace MapLayers

open Session (Extending Observes)

namespace CommandLine

variable {settings : Settings} {mapPath target : Path} {output : Option String}
  {omitData strict : Bool} {format : OutputSettings} {document : Json} {dropped code : Nat}
  {w after : World}

def writtenCode (strict : Bool) (dropped : Nat) : Nat :=
  if strict && dropped ≠ 0 then failed else succeeded

theorem exits_writtenCode (strict : Bool) (dropped : Nat) :
    writtenCode strict dropped = succeeded ∨ writtenCode strict dropped = failed := by
  unfold writtenCode
  split
  · exact .inr rfl
  · exact .inl rfl

theorem writtenCode_eq_succeeded_iff :
    writtenCode strict dropped = succeeded ↔ ¬(strict = true ∧ dropped ≠ 0) := by
  unfold writtenCode
  split <;> simp_all [succeeded, failed]

/-- What a compilation does to the files, and its exit code. -/
def Finishes (settings : Settings) (target : Path) (omitData : Bool) (w after : World) (code : Nat) :
    Option Compilation → Prop
  | none => after.SameFiles w ∧ code = failed
  | some c => w.Extends [target] after ∧
      after.Holds target (Json.write settings.output.indent settings.output.sortKeys
        (descriptors settings.output omitData c.map)) ∧
      (descriptors settings.output omitData c.map).wholesFit = true ∧
      code = writtenCode settings.compile.failOnDroppedLayers c.report.dropped

theorem Finishes.of_sameFiles {next : World} {c : Option Compilation}
    (h : Finishes settings target omitData next after code c) (hsame : next.SameFiles w) :
    Finishes settings target omitData w after code c := by
  cases c with
  | none => exact ⟨h.1.trans hsame, h.2⟩
  | some c => exact ⟨hsame.symm.extends.trans h.1, h.2⟩

/-- The exit code of a compilation agrees with the file at its output path. -/
structure Settled (settings : Settings) (target : Path) (omitData : Bool) (compiled : Option Compilation)
    (before after : World) (code : Nat) : Prop where
  written : ∀ c, compiled = some c →
    after.Holds target (Json.write settings.output.indent settings.output.sortKeys
      (c.map.toJson (.text settings.output.placeholder) !omitData))
  readBack : ∀ c text, compiled = some c → after.Holds target text →
    let document := c.map.toJson (.text settings.output.placeholder) !omitData
    Json.read text = .ok (if settings.output.sortKeys then document.sortFields else document)
  /-- Nothing is written, not even in part. -/
  untouched : compiled = none → ∀ location, after.LeadsTo target location →
    after.files.file? location = before.files.file? location
  kept : compiled = none → ∀ text, before.Holds target text → after.Holds target text
  others : ∀ location, ¬after.LeadsTo target location → ¬after.LeadsTo (logFile settings) location →
    after.files.file? location = before.files.file? location
  code_eq : code = succeeded ∨ code = failed
  succeeded_iff : code = succeeded ↔ ∃ c, compiled = some c ∧
    ¬(settings.compile.failOnDroppedLayers = true ∧ c.report.dropped ≠ 0)

theorem Finishes.settled {before : World} {c : Option Compilation}
    (h : Finishes settings target omitData w after code c)
    (hprepared : before.Extends [logFile settings] w)
    (hapart : ¬after.SamePlace target (logFile settings)) :
    Settled settings target omitData c before after code := by
  have hlog {location : Location} (htarget : after.LeadsTo target location) :
      ¬after.LeadsTo (logFile settings) location := fun h => hapart ⟨location, htarget, h⟩
  cases c with
  | none =>
    obtain ⟨hsame, rfl⟩ := h
    have hextends : before.Extends [logFile settings] after := hprepared.trans hsame.symm.extends
    have huntouched {location : Location} (hnot : ¬after.LeadsTo (logFile settings) location) :
        after.files.file? location = before.files.file? location :=
      hextends.file_eq (by simpa using hnot)
    exact {
      written := by simp
      readBack := by simp
      untouched := fun _ location htarget => huntouched (hlog htarget)
      kept := by
        rintro - text ⟨location, hleads, htext⟩
        have htarget := hextends.leadsTo hleads
        refine ⟨location, htarget, ?_⟩
        rw [← FileTree.file?_eq_some_iff] at htext ⊢
        exact (huntouched (hlog htarget)).trans htext
      others := fun location _ hnot => huntouched hnot
      code_eq := .inr rfl
      succeeded_iff := by simp [succeeded, failed] }
  | some c =>
    obtain ⟨hwritten, hholds, hdigits, rfl⟩ := h
    have hextends : before.Extends [target, logFile settings] after :=
      (hprepared.mono (by simp)).trans (hwritten.mono (by simp))
    exact {
      written := by
        rintro _ ⟨⟩
        exact hholds
      readBack := by
        rintro _ text ⟨⟩ htext
        rw [htext.unique hholds]
        exact Json.read_write (c.map.keyed_toJson settings.output.placeholder !omitData) hdigits _ _
      untouched := by simp
      kept := by simp
      others := fun location htarget hnot => hextends.file_eq (by simp [htarget, hnot])
      code_eq := exits_writtenCode _ _
      succeeded_iff := by simp [writtenCode_eq_succeeded_iff] }

section

variable [Platform]

theorem writeJson_inv {sorted : Bool} {indent : Nat}
    (h : Session.run (Files.writeJson target indent sorted document) w = (.ok (), after)) :
    w.Extends [target] after ∧ after.Holds target (Json.write indent sorted document) ∧
      document.wholesFit = true := by
  unfold Files.writeJson at h
  obtain ⟨_, made, hmade, h⟩ := Session.run_bind_eq_ok_iff.mp h
  have hdirectories := Files.ensureDirectory_extending [target] target.parent w
  rw [hmade] at hdirectories
  cases htext : Platform.writeDocument indent sorted document with
  | error fault =>
    rw [htext] at h
    obtain ⟨_, _, -, hfails⟩ := Session.run_bind_eq_ok_iff.mp h
    simp at hfails
  | ok text =>
    rw [htext] at h
    obtain ⟨⟨-, -, hdigits⟩, rfl⟩ := Platform.writeDocument_eq_ok_iff.mp htext
    obtain ⟨hextends, hholds⟩ := Files.write_inv h
    exact ⟨hdirectories.trans hextends, hholds, hdigits⟩

theorem saveDescriptors_inv
    (h : Session.run (saveDescriptors target format document strict dropped) w = (.ok code, after)) :
    w.Extends [target] after ∧ after.Holds target (Json.write format.indent format.sortKeys document) ∧
      document.wholesFit = true ∧ code = writtenCode strict dropped := by
  obtain ⟨found, first, hfound, hrest⟩ := Session.run_bind_eq_ok_iff.mp h
  obtain ⟨hconverted, hfiles⟩ := (Observes.ofResult _).of_run_ok hfound
  obtain ⟨-, rfl⟩ := Platform.converted_eq_ok_iff.mp hconverted
  obtain ⟨_, written, hwritten, hrest⟩ := Session.run_bind_eq_ok_iff.mp hrest
  have hlast : Observes (do
      info s!"Layer descriptors written to {target.text}"
      if strict && dropped ≠ 0 then
        complain s!"{dropped} layers were dropped during compilation."
        return failed
      return succeeded) fun _ => .ok (writtenCode strict dropped) := by
    refine (Observes.record _).bind fun _ => (?_ : Observes _ fun _ => .ok (writtenCode strict dropped))
    unfold writtenCode
    split
    · exact (Observes.record _).bind fun _ => .pure failed
    · exact .pure succeeded
  obtain ⟨hextends, hholds, hdigits⟩ := writeJson_inv hwritten
  obtain ⟨next, hrun, hsame⟩ := hlast.run_eq written
  obtain ⟨hcode, rfl⟩ : writtenCode strict dropped = code ∧ next = after := by
    simpa using hrun.symm.trans hrest
  exact ⟨hfiles.symm.extends.trans (hextends.trans hsame.symm.extends), hsame.holds.mpr hholds, hdigits,
    hcode.symm⟩

theorem compileDocument_inv {document : Json.Fields}
    (h : Session.run (compileDocument settings mapPath output omitData document) w = (.ok code, after)) :
    Finishes settings (outputPath settings mapPath output) omitData w after code
      (CompiledMap.ofFields (tokenJson settings.compile.token) document).toOption := by
  unfold compileDocument at h
  cases hcompiled : CompiledMap.ofFields (tokenJson settings.compile.token) document with
  | error fault =>
    rw [hcompiled] at h
    cases fault with
    | document cause =>
      obtain ⟨next, hrun, hsame⟩ := (Observes.record _).run_bind_ok (w := w) rfl fun _ => pure failed
      obtain ⟨rfl, rfl⟩ : failed = code ∧ next = after := by
        simpa using hrun.symm.trans h
      exact ⟨hsame, rfl⟩
    | _ => simp at h
  | ok c =>
    rw [hcompiled] at h
    have hrecord := Observes.forM Observes.record c.log
    have hinfo := Observes.forM (f := info) (fun line => Observes.record _) c.report.lines
    obtain ⟨first, hfirst, hsame⟩ := hrecord.run_bind_ok (w := w) rfl _
    obtain ⟨second, hsecond, hsame'⟩ := hinfo.run_bind_ok (w := first) rfl _
    obtain ⟨hextends, hsaved⟩ := saveDescriptors_inv (hsecond.symm.trans (hfirst.symm.trans h))
    exact ⟨(hsame'.trans hsame).symm.extends.trans hextends, hsaved⟩

theorem compile_inv
    (h : Session.run (compile settings mapPath output omitData) w = (.ok code, after)) :
    Finishes settings (outputPath settings mapPath output) omitData w after code
      (w.view.compilation? settings mapPath) := by
  obtain ⟨next, hrun, hsame⟩ := (observes_loadDocument settings mapPath).run_eq w
  rw [compile_eq, Session.run_bind, hrun] at h
  unfold View.compilation?
  cases hmap : w.view.mapDocument? mapPath with
  | none =>
    rcases loadedDocument_of_none settings hmap with hnone | ⟨fault, -, -, hfails⟩
    · rw [hnone] at h
      obtain ⟨rfl, rfl⟩ : failed = code ∧ next = after := by
        simpa using h
      exact ⟨hsame, rfl⟩
    · simp [hfails] at h
  | some document =>
    rw [loadedDocument_of_mapDocument hmap] at h
    cases hattached : w.view.attached document settings.paths.datasets with
    | error fault => simp [hattached, Except.map] at h
    | ok whole =>
      simp only [hattached, Except.map] at h
      simp only [Option.bind_eq_bind, Option.bind_some, hattached]
      exact (compileDocument_inv h).of_sameFiles hsame

/-- The compile command writes its descriptors exactly if there is a compilation, and its exit code tells
whether they are there and complete where that is demanded. -/
theorem runTexts_settled {texts : List String} {config : Option String} {verbose : Bool} {path : String}
    {world : World}
    (hargs : Arguments.parse texts = .ok ⟨.compile output omitData, path, config, verbose⟩)
    (hrun : Session.run (runTexts texts) world = (.ok code, after)) :
    ∃ settings ready,
      Session.run (prepare ⟨.compile output omitData, path, config, verbose⟩) world =
        (.ok settings, ready) ∧
      (¬after.SamePlace (outputPath settings (Path.ofText path) output) (logFile settings) →
        Settled settings (outputPath settings (Path.ofText path) output) omitData
          (ready.view.compilation? settings (Path.ofText path)) world after code) := by
  rw [runTexts, hargs] at hrun
  obtain ⟨settings, ready, hprepare, hcompile⟩ := Session.run_bind_eq_ok_iff.mp hrun
  refine ⟨settings, ready, hprepare, fun hapart => ?_⟩
  exact (compile_inv hcompile).settled (prepare_extends hprepare) hapart

end

def strictCall : List String := ["compile", "map.json", "--config", "config.yaml", "--output", "out.json"]

def strictArguments : Arguments :=
  ⟨.compile (some "out.json") false, "map.json", some "config.yaml", false⟩

def strictSettings : Settings where
  source := some ⟨.slash, ["config.yaml"]⟩
  paths := ⟨none, ⟨.slash, ["build", "descriptors"]⟩, ⟨.slash, ["build", "logs"]⟩⟩
  compile := ⟨none, true⟩
  output := ⟨2, true, "<accessor>"⟩

/-- A map with a layer of a type that is not supported, beside older descriptors. -/
def strictWorld : World where
  files := ⟨[(["config.yaml"], .file "compile:\n  fail_on_dropped_layers: true\n"),
    (["map.json"], .file ("\x7b\"keplerMapConfig\":\x7b\"version\":\"v1\",\"config\":\x7b\"layers\":"
      ++ "[\x7b\"id\":\"l\",\"type\":\"arc\",\"config\":\x7b\x7d\x7d]\x7d\x7d\x7d")),
    (["out.json"], .file "older")]⟩
  directory := ⟨.slash, []⟩
  verbose := false
  log := []

/-- The descriptors replace the older ones although the run fails for the layer that is missing. -/
theorem strict_run_settled : ∃ settings ready after c,
    Session.run (runTexts strictCall) strictWorld = (.ok failed, after) ∧
    Session.run (prepare strictArguments) strictWorld = (.ok settings, ready) ∧
    ready.view.compilation? settings (Path.ofText "map.json") = some c ∧
    Settled settings (Path.ofText "out.json") false (some c) strictWorld after failed := by
  have hargs : Arguments.parse strictCall = .ok strictArguments := rfl
  -- one evaluation of the run for all that is read off it
  obtain ⟨hcode, hplaces, hsettings, hcompiled⟩ :
      (Session.run (runTexts strictCall) strictWorld).1.toOption = some failed ∧
      (Session.run (runTexts strictCall) strictWorld).2.place? (Path.ofText "out.json") ≠
        (Session.run (runTexts strictCall) strictWorld).2.place? (logFile strictSettings) ∧
      (Session.run (prepare strictArguments) strictWorld).1.toOption = some strictSettings ∧
      ((Session.run (prepare strictArguments) strictWorld).2.view.compilation? strictSettings
        (Path.ofText "map.json")).isSome = true := by
    decide +kernel
  cases hrun : Session.run (runTexts strictCall) strictWorld with
  | mk outcome after =>
    rw [hrun] at hcode hplaces
    obtain rfl := Result.eq_ok_of_toOption hcode
    obtain ⟨settings, ready, hprepare, hsettled⟩ := runTexts_settled hargs hrun
    rw [strictArguments, hprepare] at hsettings hcompiled
    obtain rfl : settings = strictSettings := Option.some.inj hsettings
    obtain ⟨c, hc⟩ := Option.isSome_iff_exists.mp hcompiled
    rw [hc] at hsettled
    exact ⟨_, ready, after, c, rfl, hprepare, hc, hsettled (World.not_samePlace hplaces)⟩

end CommandLine

end MapLayers
