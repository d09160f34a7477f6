import MapLayers.Proofs.OuterStructure
import MapLayers.Proofs.Preparations

/-!
# Runs of the compile command

Once its settings are prepared, a compilation ends with an exit code unless a payload that is there cannot
be read, or the descriptors cannot be written. A map document that cannot be read, or that is refused, ends
with an exit code as well. The faults of payloads are passed on though, whichever dataset they belong to.
-/

namespace MapLayers

open Result (Succeeds)
open Session (Observes)

namespace View

def firstThere (view : View) : List Path → Result (Option Path)
  | [] => .ok none
  | p :: rest => do
    if ← view.isThere p then return some p else view.firstThere rest

/-- An entry of the dataset list with its payload. -/
def attachedEntry [Platform] (view : View) (directory : Path) : Json → Result Json
  | .object fields =>
    if !(Json.fieldOf fields "data").isNull then .ok (.object fields)
    else do
      match ← view.firstThere (Payload.candidates directory (Json.fieldOf fields "id").display) with
      | none => return .object fields
      | some p =>
        let data ← view.readJson p
        return .object (Entries.set fields "data" data)
  | entry => .ok entry

/-- A document with the payloads of its datasets. -/
def attached [Platform] (view : View) (document : Json.Fields) (directory : Option Path) :
    Result Json.Fields :=
  match directory, Json.fieldOf document "datasets" with
  | some directory, .list entries => do
    let found ← entries.mapM (view.attachedEntry directory)
    return Entries.set document "datasets" (.list found)
  | _, _ => .ok document

def mapDocument? [Platform] (view : View) (p : Path) : Option Json.Fields :=
  match view.readJson p with
  | .ok (.object document) => some document
  | _ => none

/-- What the map document at a path is compiled to, with its payloads; none if it is not there, is no
mapping, or is refused. -/
def compilation? [Platform] (view : View) (settings : Settings) (mapPath : Path) : Option Compilation := do
  let document ← view.mapDocument? mapPath
  let whole ← (view.attached document settings.paths.datasets).toOption
  (CompiledMap.ofFields (CommandLine.tokenJson settings.compile.token) whole).toOption

end View

namespace Payload

theorem observes_firstThere (paths : List Path) :
    Observes (firstThere paths : Session (Option Path)) fun view => view.firstThere paths := by
  induction paths with
  | nil => exact .pure none
  | cons p rest ih =>
    refine (Files.observes_isThere p).bind fun found => ?_
    cases found with
    | true => exact .pure (some p)
    | false => exact ih

section

variable [Platform]

theorem observes_attachEntry (directory : Path) (entry : Json) :
    Observes (attachEntry directory entry : Session Json) fun view =>
      view.attachedEntry directory entry := by
  cases entry with
  | object fields =>
    unfold attachEntry View.attachedEntry
    dsimp only
    split
    · exact .pure _
    · refine (observes_firstThere _).bind fun found => ?_
      cases found with
      | none => exact (Observes.record _).bind fun _ => .pure _
      | some p =>
        refine (Files.observes_readJson p).bind fun data => ?_
        exact (Observes.record _).bind fun _ => .pure _
  | _ => exact .pure _

theorem observes_attach (document : Json.Fields) (directory : Option Path) :
    Observes (attach document directory : Session Json.Fields) fun view =>
      view.attached document directory := by
  unfold attach View.attached
  cases directory with
  | none => exact .pure document
  | some directory =>
    generalize Json.fieldOf document "datasets" = datasets
    cases datasets with
    | list entries =>
      exact (Observes.mapM (observes_attachEntry directory) entries).bind fun found => .pure _
    | _ => exact .pure document

/-- Nothing lies at the paths, or the first thing there is the file of a document. -/
def isUsable (view : View) : List Path → Bool
  | [] => true
  | p :: rest =>
    match view p with
    | .ok (.file text) => (Platform.readDocument text).isOk
    | .ok _ => false
    | .error fault => fault.isAbsence && isUsable view rest

/-- The entry has its data, or its payload is usable. -/
def entryUsable (view : View) (directory : Path) : Json → Bool
  | .object fields =>
    !(Json.fieldOf fields "data").isNull ||
      isUsable view (candidates directory (Json.fieldOf fields "id").display)
  | _ => true

/-- All payloads of a document are usable; without a directory there are none. -/
def allUsable (view : View) (document : Json.Fields) (directory : Option Path) : Bool :=
  match directory, Json.fieldOf document "datasets" with
  | some directory, .list entries => entries.all (entryUsable view directory)
  | _, _ => true

variable {view : View} {α : Type}

theorem firstThere_bind_succeeds_iff {rest : Option Path → Result α} (hnone : Succeeds (rest none))
    (hsome : ∀ p, Succeeds (rest (some p)) ↔ Succeeds (view.readJson p)) (paths : List Path) :
    Succeeds (view.firstThere paths >>= rest) ↔ isUsable view paths = true := by
  induction paths with
  | nil => exact iff_of_true hnone rfl
  | cons p later ih =>
    have hread := hsome p
    simp only [View.firstThere, View.isThere, isUsable, View.readJson, View.readText] at hread ⊢
    cases hseen : view p with
    | ok node =>
      rw [hseen] at hread
      refine hread.trans ?_
      cases node with
      | file text => exact Result.isOk_iff.symm
      | _ => simp [bind, Except.bind]
    | error fault =>
      cases habsent : fault.isAbsence with
      | true => simpa [habsent] using ih
      | false => simp [habsent, bind, Except.bind]

theorem attachedEntry_succeeds_iff {directory : Path} {entry : Json} :
    Succeeds (view.attachedEntry directory entry) ↔ entryUsable view directory entry = true := by
  cases entry with
  | object fields =>
    unfold View.attachedEntry entryUsable
    dsimp only
    split
    · next hdata => simp [hdata]
    · next hdata =>
      rw [firstThere_bind_succeeds_iff]
      · simp [hdata]
      · exact Result.succeeds_pure _
      · exact fun p => Result.succeeds_bind_left fun data => Result.succeeds_pure _
  | _ => exact iff_of_true ⟨_, rfl⟩ rfl

theorem attached_succeeds_iff (view : View) (document : Json.Fields) (directory : Option Path) :
    Succeeds (view.attached document directory) ↔ allUsable view document directory = true := by
  unfold View.attached allUsable
  cases directory with
  | none => exact iff_of_true ⟨_, rfl⟩ rfl
  | some directory =>
    generalize Json.fieldOf document "datasets" = datasets
    cases datasets with
    | list entries =>
      refine (Result.succeeds_bind_left fun found => Result.succeeds_pure _).trans ?_
      simp [Result.succeeds_mapM, attachedEntry_succeeds_iff]
    | _ => exact iff_of_true ⟨_, rfl⟩ rfl

end

end Payload

namespace MapDocument

theorem malformed_attached [Platform] {view : View} {document attached : Json.Fields}
    {directory : Option Path} (h : view.attached document directory = .ok attached) :
    Malformed attached ↔ Malformed document := by
  unfold View.attached at h
  split at h
  · simp only [Result.bind_eq_ok_iff, Result.pure_eq_ok_iff] at h
    obtain ⟨found, -, rfl⟩ := h
    exact malformed_congr (Json.fieldOf_set_of_ne _ _ (by decide))
  · rw [Except.ok.inj h]

end MapDocument

namespace Platform

/-- A document can be put together and written with the given indent. -/
structure CanWrite [Platform] (indent : Nat) (document : Json) : Prop where
  converted : document.depth ≤ convertDepth
  written : document.depth ≤ writeDepth
  indented : indent ≤ maxIndent
  digits : document.wholesFit = true

variable [Platform] {indent : Nat} {sorted : Bool} {document found : Json} {text : String}

instance : Decidable (CanWrite indent document) :=
  decidable_of_iff (document.depth ≤ convertDepth ∧ document.depth ≤ writeDepth ∧ indent ≤ maxIndent ∧
    document.wholesFit = true)
    ⟨fun ⟨hconverted, hwritten, hindented, hdigits⟩ => ⟨hconverted, hwritten, hindented, hdigits⟩,
      fun h => ⟨h.converted, h.written, h.indented, h.digits⟩⟩

theorem converted_eq_ok_iff :
    converted document = .ok found ↔ document.depth ≤ convertDepth ∧ found = document := by
  unfold Platform.converted
  split
  · next hdeep => simp [Nat.not_le.mpr hdeep]
  · next hfits => simp [Nat.not_lt.mp hfits, eq_comm]

theorem writeDocument_eq_ok_iff : writeDocument indent sorted document = .ok text ↔
    (indent ≤ maxIndent ∧ document.depth ≤ writeDepth ∧ document.wholesFit = true) ∧
      text = Json.write indent sorted document := by
  unfold writeDocument
  by_cases hindent : maxIndent < indent
  · simp [hindent, Nat.not_le.mpr hindent]
  · by_cases hdepth : writeDepth < document.depth
    · simp [hindent, hdepth, Nat.not_le.mpr hdepth]
    · cases hdigits : document.wholesFit <;>
        simp [hindent, hdepth, Nat.not_lt.mp hindent, Nat.not_lt.mp hdepth, eq_comm]

end Platform

namespace CommandLine

variable {settings : Settings} {mapPath : Path} {output : Option String} {omitData : Bool}

def Exits (r : Result Nat) : Prop := ∃ code, r = .ok code ∧ (code = succeeded ∨ code = failed)

theorem exits_succeeded : Exits (.ok succeeded) := ⟨succeeded, rfl, .inl rfl⟩

theorem exits_failed : Exits (.ok failed) := ⟨failed, rfl, .inr rfl⟩

theorem not_exits_error (fault : Fault) : ¬Exits (.error fault) := by simp [Exits]

def Writable (w : World) (p : Path) : Prop :=
  Succeeds (Session.run (do Files.ensureDirectory p.parent; Files.write p "") w).1

theorem writable_congr {a b : World} (h : a.SameFiles b) (p : Path) :
    Writable a p ↔ Writable b p := by
  have hignores := (Files.ensureDirectory_ignoresLog p.parent).bind fun _ => Files.write_ignoresLog p ""
  unfold Writable
  rw [(hignores.agrees h).1]

theorem isReadFault_of_readText {p : Path} {view : View} {fault : Fault}
    (h : view.readText p = .error fault) : isReadFault fault = true := by
  unfold View.readText at h
  split at h
  · simp at h
  · rw [← Except.error.inj h]
    rfl
  · rw [← Except.error.inj h]
    rfl
  · next found _ =>
    rw [← Except.error.inj h]
    cases found <;> rfl

section Runs

variable [Platform]

theorem isReadFault_of_readJson {p : Path} {view : View} {fault : Fault}
    (h : view.readJson p = .error fault) :
    isReadFault fault = true ∨ fault = .nestedTooDeep ∨
      ∃ text, view p = .ok (.file text) ∧ Platform.readDocument text = .error (.operation .unpaired) := by
  rcases Result.bind_eq_error_iff.mp h with htext | ⟨text, htext, hdocument⟩
  · exact .inl (isReadFault_of_readText htext)
  · have hfile : view p = .ok (.file text) := by
      unfold View.readText at htext
      split at htext <;> simp_all
    have hread := hdocument
    unfold Platform.readDocument at hread
    split at hread
    · simp at hread
    · rw [← Except.error.inj hread]
      exact .inl rfl
    · rw [← Except.error.inj hread]
      exact .inl rfl
    · exact .inr (.inl (Except.error.inj hread).symm)
    · rw [← Except.error.inj hread] at hdocument
      exact .inr (.inr ⟨text, hfile, hdocument⟩)

theorem eq_nestedTooDeep {w : World} (hpaired : w.Paired) {fault : Fault}
    (h : w.view.readJson mapPath = .error fault) (hpassed : isReadFault fault = false) :
    fault = .nestedTooDeep := by
  rcases isReadFault_of_readJson h with hread | rfl | ⟨text, hfile, hunpaired⟩
  · rw [hread] at hpassed
    simp at hpassed
  · rfl
  · obtain ⟨location, hnode⟩ := World.node_of_view hfile
    exact absurd hunpaired (hpaired location text hnode)

/-- The outcome of loading the map document: none if its fault has been reported. -/
def loadedDocument (settings : Settings) (mapPath : Path) (view : View) : Result (Option Json.Fields) :=
  match view.readJson mapPath with
  | .ok (.object document) => (view.attached document settings.paths.datasets).map some
  | .ok _ => .ok none
  | .error fault => if isReadFault fault then .ok none else .error fault

theorem observes_loadDocument (settings : Settings) (mapPath : Path) :
    Observes (loadDocument settings mapPath : Session _) (loadedDocument settings mapPath) := by
  have hread := (Files.observes_readJson mapPath).attempt isReadFault
  refine (hread.bind fun read => (?_ : Observes _ fun view => match read with
    | .ok (.object document) => (view.attached document settings.paths.datasets).map some
    | _ => .ok none)).congr fun view => ?_
  · cases read with
    | error fault => exact (Observes.record _).bind fun _ => .pure none
    | ok document =>
      cases document with
      | object document =>
        exact (Payload.observes_attach document settings.paths.datasets).bind fun found =>
          .pure (some found)
      | _ => exact (Observes.record _).bind fun _ => .pure none
  · unfold loadedDocument
    cases view.readJson mapPath with
    | error fault => cases hreported : isReadFault fault <;> simp [hreported, bind, Except.bind]
    | ok document => cases document <;> rfl

theorem loadedDocument_of_mapDocument {view : View} {document : Json.Fields}
    (h : view.mapDocument? mapPath = some document) :
    loadedDocument settings mapPath view = (view.attached document settings.paths.datasets).map some := by
  unfold View.mapDocument? at h
  unfold loadedDocument
  split at h
  · next found hread =>
    rw [hread, Option.some.inj h]
  · simp at h

theorem loadedDocument_of_none (settings : Settings) {view : View}
    (h : view.mapDocument? mapPath = none) :
    loadedDocument settings mapPath view = .ok none ∨
      ∃ fault, view.readJson mapPath = .error fault ∧ isReadFault fault = false ∧
        loadedDocument settings mapPath view = .error fault := by
  unfold View.mapDocument? at h
  unfold loadedDocument
  cases hread : view.readJson mapPath with
  | ok document =>
    rw [hread] at h
    cases document <;> simp_all
  | error fault => cases hreported : isReadFault fault <;> simp [hreported]

/-- The end of a compilation, from the writing of its descriptors on. -/
def saveDescriptors (target : Path) (format : OutputSettings) (document : Json) (strict : Bool)
    (dropped : Nat) : Session Nat := do
  let document ← Files.ofResult (Platform.converted document)
  Files.writeJson target format.indent format.sortKeys document
  info s!"Layer descriptors written to {target.text}"
  if strict && dropped ≠ 0 then
    complain s!"{dropped} layers were dropped during compilation."
    return failed
  return succeeded

theorem writeJson_succeeds_iff (p : Path) (indent : Nat) (sorted : Bool) (document : Json) (w : World) :
    Succeeds (Session.run (Files.writeJson p indent sorted document) w).1 ↔
      Writable w p ∧ Succeeds (Platform.writeDocument indent sorted document) := by
  unfold Writable Files.writeJson
  rw [Session.run_bind, Session.run_bind]
  cases Session.run (Files.ensureDirectory p.parent) w with
  | mk made next =>
    cases made with
    | error fault => simp
    | ok _ =>
      dsimp only
      cases Platform.writeDocument indent sorted document with
      | ok text => simp [Files.write_outcome p text ""]
      | error fault =>
        dsimp only
        rw [Session.run_bind]
        cases Session.run (Files.write p (Platform.unfinished document)) next with
        | mk written after => cases written <;> simp

theorem saveDescriptors_exits_iff (target : Path) (format : OutputSettings) (document : Json)
    (strict : Bool) (dropped : Nat) (w : World) :
    Exits (Session.run (saveDescriptors target format document strict dropped) w).1 ↔
      Writable w target ∧ Platform.CanWrite format.indent document := by
  have hlast (after : World) : Exits (Session.run (do
      info s!"Layer descriptors written to {target.text}"
      if strict && dropped ≠ 0 then
        complain s!"{dropped} layers were dropped during compilation."
        return failed
      return succeeded) after).1 := by
    split
    · exact exits_failed
    · exact exits_succeeded
  have hwrite := writeJson_succeeds_iff target format.indent format.sortKeys document w
  unfold saveDescriptors
  cases hconverted : Platform.converted document with
  | error fault =>
    refine iff_of_false ?_ fun hcan => ?_
    · rw [Files.ofResult, Session.run_bind, Session.run_throw]
      exact not_exits_error fault
    · have hok := Platform.converted_eq_ok_iff.mpr ⟨hcan.2.converted, rfl⟩
      rw [hconverted] at hok
      simp at hok
  | ok found =>
    obtain ⟨hdepth, rfl⟩ := Platform.converted_eq_ok_iff.mp hconverted
    rw [Files.ofResult, pure_bind, Session.run_bind]
    cases hrun : Session.run (Files.writeJson target format.indent format.sortKeys found) w with
    | mk written after =>
      rw [hrun] at hwrite
      cases written with
      | error fault =>
        refine iff_of_false (not_exits_error fault) fun hcan => ?_
        have htext : Platform.writeDocument format.indent format.sortKeys found =
            .ok (Json.write format.indent format.sortKeys found) :=
          Platform.writeDocument_eq_ok_iff.mpr ⟨⟨hcan.2.indented, hcan.2.written, hcan.2.digits⟩, rfl⟩
        simpa using hwrite.mpr ⟨hcan.1, _, htext⟩
      | ok _ =>
        obtain ⟨hwritable, text, htext⟩ := hwrite.mp ⟨(), rfl⟩
        obtain ⟨⟨hindented, hnested, hdigits⟩, -⟩ := Platform.writeDocument_eq_ok_iff.mp htext
        exact iff_of_true (hlast after) ⟨hwritable, hdepth, hnested, hindented, hdigits⟩

/-- What is done with a map document once it has been loaded. -/
def compileDocument (settings : Settings) (mapPath : Path) (output : Option String)
    (omitData : Bool) (document : Json.Fields) : Session Nat :=
  match CompiledMap.ofFields (tokenJson settings.compile.token) document with
  | .error (.document cause) => do
    complain s!"Cannot compile {mapPath.text}: {cause.message}"
    return failed
  | .error fault => throw fault
  | .ok compilation => do
    compilation.log.forM Host.record
    compilation.report.lines.forM info
    saveDescriptors (outputPath settings mapPath output) settings.output
      (descriptors settings.output omitData compilation.map)
      settings.compile.failOnDroppedLayers compilation.report.dropped

theorem compile_eq : (compile settings mapPath output omitData : Session Nat) =
    loadDocument settings mapPath >>= fun loaded => match loaded with
      | none => pure failed
      | some document => compileDocument settings mapPath output omitData document := rfl

theorem compileDocument_exits_iff (document : Json.Fields) (w : World) :
    Exits (Session.run (compileDocument settings mapPath output omitData document) w).1 ↔
      (¬MapDocument.Malformed document → Writable w (outputPath settings mapPath output) ∧
        ∃ c, CompiledMap.ofFields (tokenJson settings.compile.token) document = .ok c ∧
          Platform.CanWrite settings.output.indent (descriptors settings.output omitData c.map)) := by
  unfold compileDocument
  by_cases hbad : MapDocument.Malformed document
  · obtain ⟨cause, hcause⟩ := MapDocument.refused_of_malformed hbad
    rw [CompiledMap.ofFields, hcause]
    exact iff_of_true exits_failed (absurd hbad)
  · obtain ⟨compilation, hcompiles⟩ :=
      CompiledMap.compiles_of_not_malformed (tokenJson settings.compile.token) hbad
    have hrecord := Observes.forM Observes.record compilation.log
    have hinfo := Observes.forM (f := info) (fun line => Observes.record _) compilation.report.lines
    rw [hcompiles]
    dsimp only
    obtain ⟨first, hfirst, hsame⟩ := hrecord.run_bind_ok (w := w) rfl _
    rw [hfirst]
    obtain ⟨second, hsecond, hsame'⟩ := hinfo.run_bind_ok (w := first) rfl _
    rw [hsecond, saveDescriptors_exits_iff, writable_congr (hsame'.trans hsame)]
    simp [hbad]

/-- What a compilation has to find to end with an exit code: a map document that is not nested too deep, and
if it is there, payloads that can be read and, unless the document is refused, a path that can be written and
descriptors that can be. -/
def Compilable (settings : Settings) (mapPath : Path) (output : Option String) (omitData : Bool)
    (w : World) : Prop :=
  w.view.readJson mapPath ≠ .error .nestedTooDeep ∧
    ∀ document, w.view.mapDocument? mapPath = some document →
      Payload.allUsable w.view document settings.paths.datasets = true ∧
      (¬MapDocument.Malformed document → Writable w (outputPath settings mapPath output) ∧
        ∃ c, w.view.compilation? settings mapPath = some c ∧
          Platform.CanWrite settings.output.indent (descriptors settings.output omitData c.map))

theorem compile_exits_iff {w : World} (hpaired : w.Paired) :
    Exits (Session.run (compile settings mapPath output omitData) w).1 ↔
      Compilable settings mapPath output omitData w := by
  obtain ⟨next, hrun, hsame⟩ := (observes_loadDocument settings mapPath).run_eq w
  rw [compile_eq, Session.run_bind, hrun]
  unfold Compilable
  cases hmap : w.view.mapDocument? mapPath with
  | none =>
    rcases loadedDocument_of_none settings hmap with hnone | ⟨fault, hread, hpassed, hfails⟩
    · rw [hnone]
      refine iff_of_true exits_failed ⟨fun hdeep => ?_, by simp⟩
      simp [loadedDocument, hdeep, isReadFault, Fault.nestedTooDeep, Fault.kind] at hnone
    · rw [hfails, hread, eq_nestedTooDeep hpaired hread hpassed]
      simp [not_exits_error]
  | some document =>
    have hread : w.view.readJson mapPath ≠ .error .nestedTooDeep := by
      intro hdeep
      simp [View.mapDocument?, hdeep] at hmap
    have hattach := Payload.attached_succeeds_iff w.view document settings.paths.datasets
    rw [loadedDocument_of_mapDocument hmap]
    cases hattached : w.view.attached document settings.paths.datasets with
    | error fault =>
      have hunusable : Payload.allUsable w.view document settings.paths.datasets ≠ true := by
        simpa [hattached] using hattach
      refine iff_of_false ?_ fun hall => hunusable (hall.2 document rfl).1
      simp [Except.map, not_exits_error]
    | ok whole =>
      have husable : Payload.allUsable w.view document settings.paths.datasets = true := by
        simpa [hattached] using hattach
      have hcompilation : ∀ c, w.view.compilation? settings mapPath = some c ↔
          CompiledMap.ofFields (tokenJson settings.compile.token) whole = .ok c := by
        intro c
        simp [View.compilation?, hmap, hattached, Result.toOption_eq_some_iff]
      simp only [Except.map, Option.some.injEq, forall_eq', husable, true_and, hcompilation]
      rw [compileDocument_exits_iff, MapDocument.malformed_attached hattached, writable_congr hsame]
      exact (and_iff_right hread).symm

/-- A call to compile ends with an exit code exactly if its settings and directories can be prepared and the
compilation then finds what it needs. In every other case a fault escapes. -/
theorem runTexts_exits_iff {texts : List String} {config : Option String} {verbose : Bool}
    {path : String}
    (h : Arguments.parse texts = .ok ⟨.compile output omitData, path, config, verbose⟩)
    {world : World} (hpaired : world.Paired) :
    Exits (Session.run (runTexts texts) world).1 ↔
      ∃ settings ready, Session.run (prepare ⟨.compile output omitData, path, config, verbose⟩) world =
          (.ok settings, ready) ∧
        Compilable settings (Path.ofText path) output omitData ready := by
  rw [runTexts, h]
  dsimp only [run]
  rw [Session.run_bind]
  cases hprepare : Session.run (prepare ⟨.compile output omitData, path, config, verbose⟩) world with
  | mk prepared ready =>
    cases prepared with
    | error fault => simp [not_exits_error]
    | ok settings =>
      have hready : ready.Paired := paired_of_prepare hpaired hprepare
      refine (compile_exits_iff hready).trans ⟨fun hmap => ⟨settings, ready, rfl, hmap⟩, ?_⟩
      rintro ⟨_, _, hsame, hmap⟩
      cases hsame
      exact hmap

end Runs

def sampleCall : List String := ["compile", "map.json", "--config", "config.yaml"]

def sampleArguments : Arguments := ⟨.compile none false, "map.json", some "config.yaml", false⟩

/-- Two datasets, the first one with its data and with a layer. -/
def sampleMap : String :=
  "\x7b\"datasets\":[\x7b\"id\":\"a\",\"data\":[]\x7d,\x7b\"id\":\"b\"\x7d],"
    ++ "\"keplerMapConfig\":\x7b\"version\":\"v1\",\"config\":\x7b\"layers\":"
    ++ "[\x7b\"id\":\"l\",\"type\":\"mvt\",\"config\":\x7b\"dataId\":\"a\"\x7d\x7d]\x7d\x7d\x7d"

/-- The files of the call, with the payload of the second dataset or without. -/
def sampleWorld (payload : Option String) : World where
  files := ⟨[(["config.yaml"], .file "paths:\n  datasets_dir: .\n"),
    (["map.json"], .file sampleMap)] ++ payload.toList.map fun text => (["b.json"], .file text)⟩
  directory := ⟨.slash, []⟩
  verbose := false
  log := []

/-- The settings of the call, with payloads beside the map. -/
def sampleSettings : Settings where
  source := some ⟨.slash, ["config.yaml"]⟩
  paths := ⟨some ⟨.slash, []⟩, ⟨.slash, ["build", "descriptors"]⟩, ⟨.slash, ["build", "logs"]⟩⟩
  compile := ⟨none, false⟩
  output := ⟨2, true, "<accessor>"⟩

/-- Whether the map document at a path is there with usable payloads, and can be compiled and written. -/
def compilesAt (settings : Settings) (mapPath : Path) (view : View) : Bool :=
  match view.mapDocument? mapPath, view.compilation? settings mapPath with
  | some document, some c => Payload.allUsable view document settings.paths.datasets &&
    decide (Platform.CanWrite settings.output.indent (descriptors settings.output false c.map))
  | _, _ => false

theorem compilable_of_compilesAt {mapPath : Path} {settings : Settings} {w : World}
    (h : compilesAt settings mapPath w.view = true)
    (hwritable : Writable w (outputPath settings mapPath none)) :
    Compilable settings mapPath none false w := by
  unfold compilesAt at h
  split at h
  · next document c hmap hcompilation =>
    obtain ⟨husable, hcan⟩ := Bool.and_eq_true_iff.mp h
    refine ⟨fun hdeep => ?_, fun found hfound => ?_⟩
    · simp [View.mapDocument?, hdeep] at hmap
    · obtain rfl := Option.some.inj (hmap.symm.trans hfound)
      exact ⟨husable, fun _ => ⟨hwritable, c, hcompilation, of_decide_eq_true hcan⟩⟩
  · simp at h

theorem sampleWorld_paired : (sampleWorld none).Paired := by
  intro location text htext hunpaired
  have hentry : (location, FileNode.file text) ∈ (sampleWorld none).files.nodes := by
    unfold FileTree.node? at htext
    split at htext
    · simp at htext
    · exact Entries.mem_of_get?_eq_some htext
  have hpaired : ((sampleWorld none).files.nodes.all fun entry => match entry.2 with
      | .file text => !(Platform.readDocument text).failsBy .unpaired
      | _ => true) = true := by
    decide +kernel
  have hfails := List.all_eq_true.mp hpaired _ hentry
  simp [hunpaired, Result.failsBy, Fault.kind] at hfails

theorem sample_call_exits : (sampleWorld none).Paired ∧
    Exits (Session.run (runTexts sampleCall) (sampleWorld none)).1 ∧
    ∃ settings ready, Session.run (prepare sampleArguments) (sampleWorld none) = (.ok settings, ready) ∧
      Compilable settings (Path.ofText "map.json") none false ready := by
  -- one evaluation of the preparation for all that is read off it
  obtain ⟨hsettings, hcompiles, hwritable⟩ :
      let prepared := Session.run (prepare sampleArguments) (sampleWorld none)
      prepared.1.toOption = some sampleSettings ∧
      compilesAt sampleSettings (Path.ofText "map.json") prepared.2.view = true ∧
      (Session.run (do
        let target := outputPath sampleSettings (Path.ofText "map.json") none
        Files.ensureDirectory target.parent
        Files.write target "") prepared.2).1.isOk = true := by
    decide +kernel
  cases hprepare : Session.run (prepare sampleArguments) (sampleWorld none) with
  | mk outcome ready =>
    rw [hprepare] at hsettings hcompiles hwritable
    obtain rfl := Result.eq_ok_of_toOption hsettings
    have hcompilable := compilable_of_compilesAt hcompiles (Result.isOk_iff.mp hwritable)
    have hargs : Arguments.parse sampleCall = .ok sampleArguments := rfl
    exact ⟨sampleWorld_paired, (runTexts_exits_iff hargs sampleWorld_paired).mpr
      ⟨_, _, hprepare, hcompilable⟩, _, _, rfl, hcompilable⟩

/-- An empty payload of a dataset without layers ends the whole run. -/
theorem empty_payload_escapes :
    (Session.run (runTexts sampleCall) (sampleWorld (some ""))).1.failsBy .jsonText = true := by
  decide +kernel

end CommandLine

end MapLayers
