import MapLayers.Proofs.OuterStructure

/-!
# Compiling layer by layer

A map is compiled one layer at a time, and no layer notices another one: the layers, errors and
warnings of a whole run are those of the runs on its single layers, one after the other in drawing
order. Everything else in the result does not depend on the layers at all, and every entry of the
layer list is either compiled or reported once.
-/

namespace MapLayers

namespace Gathered

variable (surroundings : Surroundings) (datasets : List Dataset)

/-- What one run has left, followed by what another one has. -/
def append (g h : Gathered) : Gathered :=
  ⟨g.layers ++ h.layers, g.dropped + h.dropped, g.messages.append h.messages, g.log ++ h.log⟩

theorem append_assoc (f g h : Gathered) : (f.append g).append h = f.append (g.append h) := by
  simp [append, Report.append, Nat.add_assoc]

theorem add_eq_append (g : Gathered) (o : LayerOutcome) : g.add o = g.append (empty.add o) := by
  unfold add
  cases o.result with
  | ok descriptor => simp [append, empty, Report.append, Report.empty]
  | error fault =>
    cases fault <;>
      simp [append, empty, Report.append, Report.empty, Report.addError, Report.addWarning]

theorem foldl_eq_append (entries : List Json) (g : Gathered) :
    entries.foldl (fun g entry => g.add (LayerOutcome.ofEntry surroundings datasets entry)) g =
      g.append (run surroundings datasets entries) := by
  induction entries generalizing g with
  | nil => simp [run, append, empty, Report.append, Report.empty]
  | cons entry rest ih =>
    rw [run, List.foldl_cons, List.foldl_cons, ih, ih, add_eq_append g, append_assoc]

theorem run_cons (entry : Json) (rest : List Json) :
    run surroundings datasets (entry :: rest) =
      (run surroundings datasets [entry]).append (run surroundings datasets rest) := by
  rw [run, List.foldl_cons, foldl_eq_append]
  rfl

theorem run_flatMap {α : Type} (part : Gathered → List α) (hempty : part empty = [])
    (happend : ∀ g h, part (g.append h) = part g ++ part h) (entries : List Json) :
    part (run surroundings datasets entries) =
      entries.flatMap fun entry => part (run surroundings datasets [entry]) := by
  induction entries with
  | nil => exact hempty
  | cons entry rest ih => rw [run_cons, happend, ih, List.flatMap_cons]

theorem mem_layers_run {descriptor : LayerDescriptor} {entries : List Json} :
    descriptor ∈ (run surroundings datasets entries).layers ↔
      ∃ entry ∈ entries,
        (LayerOutcome.ofEntry surroundings datasets entry).result = .ok descriptor := by
  have hone : ∀ entry, descriptor ∈ (run surroundings datasets [entry]).layers ↔
      (LayerOutcome.ofEntry surroundings datasets entry).result = .ok descriptor := by
    intro entry
    show descriptor ∈ (empty.add (LayerOutcome.ofEntry surroundings datasets entry)).layers ↔ _
    unfold add
    cases (LayerOutcome.ofEntry surroundings datasets entry).result with
    | ok other => simp [empty, eq_comm]
    | error fault => cases fault <;> simp [empty]
  rw [run_flatMap surroundings datasets layers rfl fun _ _ => rfl, List.mem_flatMap]
  simp only [hone]

/-- Every outcome so far was either kept or dropped, and what was dropped was reported once. -/
structure Counted (g : Gathered) (entries : Nat) : Prop where
  total : g.layers.length + g.dropped = entries
  reported : g.dropped = g.messages.errors.length + g.messages.warnings.length

theorem Counted.add {g : Gathered} {entries : Nat} (h : g.Counted entries) (o : LayerOutcome) :
    (g.add o).Counted (entries + 1) := by
  obtain ⟨htotal, hreported⟩ := h
  unfold Gathered.add
  cases o.result with
  | ok descriptor => exact ⟨by simp; omega, hreported⟩
  | error fault =>
    cases fault <;> constructor <;> simp [Report.addError, Report.addWarning] <;> omega

theorem Counted.foldl {g : Gathered} {before : Nat} (h : g.Counted before) (entries : List Json) :
    (entries.foldl (fun g entry => g.add (LayerOutcome.ofEntry surroundings datasets entry))
      g).Counted (before + entries.length) := by
  induction entries generalizing g before with
  | nil => exact h
  | cons entry rest ih =>
    rw [List.foldl_cons, List.length_cons, Nat.add_comm rest.length, ← Nat.add_assoc]
    exact ih (h.add _)

theorem run_counted (entries : List Json) :
    (run surroundings datasets entries).Counted entries.length := by
  have hstart : empty.Counted 0 := ⟨rfl, rfl⟩
  simpa [run] using hstart.foldl surroundings datasets entries

end Gathered

namespace MapDocument

variable {fields : Json.Fields}

/-- The layer list of a document. -/
def layerList (fields : Json.Fields) : List Json := (layersValue fields).itemsOrNone

/-- The settings with another layer list in the place where they have theirs. -/
def settingsWithLayers (settings : Json.Fields) (layers : List Json) : Json.Fields :=
  match Json.fieldOf settings "visState" with
  | .object visState =>
    Entries.set settings "visState" (.object (Entries.set visState "layers" (.list layers)))
  | _ => Entries.set settings "layers" (.list layers)

/-- The same document with another layer list. -/
def withLayers (fields : Json.Fields) (layers : List Json) : Json.Fields :=
  let settings := settingsWithLayers (settingsValue fields).fieldsOrNone layers
  Entries.set fields "keplerMapConfig"
    (.object (Entries.set (mapConfigValue fields).fieldsOrNone "config" (.object settings)))

/-- Two documents that differ in their layer lists at most. -/
structure AgreeOffLayers (d e : MapDocument) : Prop where
  field : ∀ key, key ≠ "keplerMapConfig" → d.field key = e.field key
  setting : ∀ key, key ≠ "visState" → key ≠ "layers" → d.setting key = e.setting key
  part : ∀ key, key ≠ "layers" → Json.fieldOf d.visState key = Json.fieldOf e.visState key

theorem mapConfigValue_withLayers (fields : Json.Fields) (layers : List Json) :
    mapConfigValue (withLayers fields layers) =
      .object (Entries.set (mapConfigValue fields).fieldsOrNone "config"
        (.object (settingsWithLayers (settingsValue fields).fieldsOrNone layers))) :=
  Json.fieldOf_set_self _ _ _

theorem versionValue_withLayers (fields : Json.Fields) (layers : List Json) :
    versionValue (withLayers fields layers) = versionValue fields := by
  unfold versionValue
  rw [mapConfigValue_withLayers]
  exact Json.fieldOf_set_of_ne _ _ (by decide)

theorem settingsValue_withLayers (fields : Json.Fields) (layers : List Json) :
    settingsValue (withLayers fields layers) =
      .object (settingsWithLayers (settingsValue fields).fieldsOrNone layers) := by
  unfold settingsValue
  rw [mapConfigValue_withLayers]
  exact Json.fieldOf_set_self _ _ _

theorem settingsWithLayers_setting (settings : Json.Fields) (layers : List Json) {key : String}
    (hvis : key ≠ "visState") (hlayers : key ≠ "layers") :
    Json.fieldOf (settingsWithLayers settings layers) key = Json.fieldOf settings key := by
  unfold settingsWithLayers
  split
  · exact Json.fieldOf_set_of_ne _ _ hvis.symm
  · exact Json.fieldOf_set_of_ne _ _ hlayers.symm

theorem layerPart_withLayers (layers : List Json)
    (hvis : (visStateValue fields).isNull = true ∨ (visStateValue fields).isObject = true) :
    ((visStateValue (withLayers fields layers)).isNull = true ∨
      (visStateValue (withLayers fields layers)).isObject = true) ∧
    layerPart (withLayers fields layers) =
      Entries.set (layerPart fields) "layers" (.list layers) := by
  unfold layerPart visStateValue at *
  rw [settingsValue_withLayers, Json.fieldsOrNone_object]
  unfold settingsWithLayers
  generalize (settingsValue fields).fieldsOrNone = settings at *
  cases hv : Json.fieldOf settings "visState" with
  | null =>
    have hkeep : Json.fieldOf (Entries.set settings "layers" (.list layers)) "visState" = .null := by
      rw [Json.fieldOf_set_of_ne _ _ (by decide), hv]
    simp only [hkeep]
    exact ⟨.inl rfl, rfl⟩
  | object visState =>
    simp only [Json.fieldOf_set_self]
    exact ⟨.inr rfl, rfl⟩
  | _ => simp [hv, Json.isNull, Json.isObject] at hvis

/-- A document stays readable with any other layer list, and only its layers change. -/
theorem ofFields_withLayers {document : MapDocument} (h : ofFields fields = .ok document)
    (layers : List Json) :
    ∃ other, ofFields (withLayers fields layers) = .ok other ∧ other.layers = layers ∧
      AgreeOffLayers other document := by
  obtain ⟨hwell, rfl⟩ := ofFields_eq_ok_iff.mp h
  obtain ⟨-, hversion, -, hvis, -⟩ := not_malformed_iff.mp hwell
  obtain ⟨hvis', hpart⟩ := layerPart_withLayers layers hvis
  have hlayers : layersValue (withLayers fields layers) = .list layers := by
    unfold layersValue
    rw [hpart]
    exact Json.fieldOf_set_self _ _ _
  have hwell' : ¬Malformed (withLayers fields layers) := by
    rw [not_malformed_iff, mapConfigValue_withLayers, versionValue_withLayers,
      settingsValue_withLayers, hlayers]
    exact ⟨rfl, hversion, fun _ => rfl, hvis', fun _ => rfl⟩
  refine ⟨outline (withLayers fields layers), ofFields_of_not_malformed hwell', ?_, ?_, ?_, ?_⟩
  · simp [outline, hlayers, Json.itemsOrNone]
  · intro key hkey
    exact Json.fieldOf_set_of_ne _ _ hkey.symm
  · intro key hvisKey hlayersKey
    simp only [setting, outline, settingsValue_withLayers, Json.fieldsOrNone]
    exact settingsWithLayers_setting _ _ hvisKey hlayersKey
  · intro key hkey
    simp only [outline, hpart]
    exact Json.fieldOf_set_of_ne _ _ hkey.symm

end MapDocument

namespace CompiledMap

open MapDocument (AgreeOffLayers layerList outline withLayers)

variable {token : Json} {fields : Json.Fields}

theorem surroundings_congr {d e : MapDocument} (h : AgreeOffLayers d e) (token : Json) :
    surroundings token d = surroundings token e := by
  simp only [surroundings, tokenFor, h.field "token" (by decide),
    h.part "interactionConfig" (by decide), h.part "layerBlending" (by decide),
    h.setting "filters" (by decide) (by decide)]

theorem around_congr {d e : MapDocument} (h : AgreeOffLayers d e) (token : Json)
    (layers : List LayerDescriptor) : around token d layers = around token e layers := by
  simp only [around, tokenFor, h.field "token" (by decide), h.field "id" (by decide),
    h.field "title" (by decide), h.field "description" (by decide),
    h.field "createdAt" (by decide), h.field "updatedAt" (by decide),
    h.setting "mapState" (by decide) (by decide), h.setting "mapStyle" (by decide) (by decide),
    h.setting "popupSettings" (by decide) (by decide),
    h.setting "legendSettings" (by decide) (by decide)]

/-- What a document is compiled to when its layer list is the given one. -/
def compiledWith (token : Json) (document : MapDocument) (loaded : List Dataset × Log)
    (layers : List Json) : Compilation :=
  let gathered := Gathered.run (surroundings token document) loaded.1 layers.reverse
  ⟨around token document gathered.layers, reportOf layers.length gathered,
    loaded.2 ++ gathered.log⟩

theorem compile_eq {document other : MapDocument} {loaded : List Dataset × Log}
    (hloaded : Dataset.loadWellFormed (document.field "datasets") = .ok loaded)
    (hagree : AgreeOffLayers other document) :
    compile token other = .ok (compiledWith token document loaded other.layers) := by
  rw [compile, hagree.field "datasets" (by decide), hloaded, surroundings_congr hagree]
  simp only [Result.ok_bind, around_congr hagree]
  rfl

theorem ofFields_inv {whole : Compilation} (h : ofFields token fields = .ok whole) :
    MapDocument.ofFields fields = .ok (outline fields) ∧
    ∃ loaded, Dataset.loadWellFormed (Json.fieldOf fields "datasets") = .ok loaded ∧
      whole = compiledWith token (outline fields) loaded (layerList fields) := by
  unfold ofFields at h
  cases hread : MapDocument.ofFields fields with
  | error cause => simp [hread] at h
  | ok document =>
    obtain ⟨-, rfl⟩ := MapDocument.ofFields_eq_ok_iff.mp hread
    rw [hread] at h
    obtain ⟨loaded, hloaded⟩ := Dataset.loadWellFormed_total (Json.fieldOf fields "datasets")
    have hself : AgreeOffLayers (outline fields) (outline fields) :=
      ⟨fun _ _ => rfl, fun _ _ _ => rfl, fun _ _ => rfl⟩
    exact ⟨rfl, loaded, hloaded, Except.ok.inj (h.symm.trans (compile_eq hloaded hself))⟩

theorem ofFields_compiledWith {whole : Compilation} (h : ofFields token fields = .ok whole) :
    ∃ document loaded, whole = compiledWith token document loaded (layerList fields) ∧
      ∀ layers, ofFields token (withLayers fields layers) =
        .ok (compiledWith token document loaded layers) := by
  obtain ⟨hread, loaded, hloaded, hwhole⟩ := ofFields_inv h
  refine ⟨outline fields, loaded, hwhole, fun layers => ?_⟩
  obtain ⟨other, hother, rfl, hagree⟩ := MapDocument.ofFields_withLayers hread layers
  rw [ofFields, hother]
  exact compile_eq hloaded hagree

/-- The layers in the written form of a map. -/
def writtenLayers (placeholder : Json) (includeData : Bool) (m : CompiledMap) : List Json :=
  (Json.fieldOf (m.toJson placeholder includeData).fieldsOrNone "layers").itemsOrNone

theorem toItems_eq_map (placeholder : Json) (items : List PropValue) :
    PropValue.toItems placeholder items = items.map (PropValue.toJson placeholder) := by
  induction items with
  | nil => rfl
  | cons item rest ih => rw [PropValue.toItems, ih, List.map_cons]

theorem writtenLayers_eq (placeholder : Json) (includeData : Bool) (m : CompiledMap) :
    writtenLayers placeholder includeData m = m.layers.map fun layer =>
      (if includeData then layer else withoutData layer).toValue.toJson placeholder := by
  have hlist : Json.fieldOf (m.toJson placeholder includeData).fieldsOrNone "layers" =
      .list (PropValue.toItems placeholder
        ((if includeData then m.layers else m.layers.map withoutData).map
          LayerDescriptor.toValue)) := by
    simp [toJson, toValue, PropValue.toJson, PropValue.ofFields, PropValue.toFields,
      PropKey.text, Entries.ofList, Entries.overlay_cons, Json.fieldOf_set_self]
  rw [writtenLayers, hlist, Json.itemsOrNone_list, toItems_eq_map]
  cases includeData <;> simp

/-- A run on a whole document beside the runs on the same document with a single layer. -/
structure Layerwise (token : Json) (fields : Json.Fields) (whole : Compilation)
    (solo : Json → Compilation) : Prop where
  solo_ok : ∀ layer, ofFields token (withLayers fields [layer]) = .ok (solo layer)
  layers : whole.map.layers =
    (layerList fields).reverse.flatMap fun layer => (solo layer).map.layers
  written : ∀ placeholder includeData, writtenLayers placeholder includeData whole.map =
    (layerList fields).reverse.flatMap fun layer =>
      writtenLayers placeholder includeData (solo layer).map
  errors : whole.report.messages.errors =
    (layerList fields).reverse.flatMap fun layer => (solo layer).report.messages.errors
  warnings : whole.report.messages.warnings =
    (layerList fields).reverse.flatMap fun layer => (solo layer).report.messages.warnings
  rest : ∀ others, ∃ other, ofFields token (withLayers fields others) = .ok other ∧
    other.map = { whole.map with layers := other.map.layers }
  count : whole.report.count? = some ⟨(layerList fields).length, whole.map.layers.length,
    (layerList fields).length - whole.map.layers.length⟩
  compiled_le : whole.map.layers.length ≤ (layerList fields).length
  dropped : (layerList fields).length - whole.map.layers.length =
    whole.report.messages.errors.length + whole.report.messages.warnings.length

/-- Whatever is compiled is compiled layer by layer. -/
theorem ofFields_layerwise {whole : Compilation} (h : ofFields token fields = .ok whole) :
    ∃ solo, Layerwise token fields whole solo := by
  obtain ⟨document, loaded, rfl, hothers⟩ := ofFields_compiledWith h
  let run := Gathered.run (surroundings token document) loaded.1
  have hlayers : (run (layerList fields).reverse).layers =
      (layerList fields).reverse.flatMap fun layer => (run [layer]).layers :=
    Gathered.run_flatMap _ _ Gathered.layers rfl (fun _ _ => rfl) _
  obtain ⟨htotal, hreported⟩ := Gathered.run_counted (surroundings token document) loaded.1
    (layerList fields).reverse
  rw [List.length_reverse] at htotal
  have hdropped : (layerList fields).length -
      (compiledWith token document loaded (layerList fields)).map.layers.length =
        (run (layerList fields).reverse).dropped := Nat.sub_eq_of_eq_add' htotal.symm
  refine ⟨fun layer => compiledWith token document loaded [layer], ?_⟩
  exact {
    solo_ok := fun layer => hothers [layer]
    layers := hlayers
    written := by
      intro placeholder includeData
      simp only [writtenLayers_eq]
      show (run _).layers.map _ = _
      rw [hlayers, List.map_flatMap]
      rfl
    errors := Gathered.run_flatMap _ _ (fun g => g.messages.errors) rfl (fun _ _ => rfl) _
    warnings := Gathered.run_flatMap _ _ (fun g => g.messages.warnings) rfl (fun _ _ => rfl) _
    rest := fun others => ⟨_, hothers others, rfl⟩
    count := by
      rw [hdropped]
      rfl
    compiled_le := Nat.le.intro htotal
    dropped := hdropped.trans hreported }

/-- A document with a layer that is no mapping, one that can be compiled, and one of an unsupported
type. -/
def mixedDocument : Json.Fields :=
  [("datasets", .list [.object [("id", .text "d"), ("data", .list [])]]),
    ("keplerMapConfig", .object [("version", .text "v1"), ("config", .object [("visState", .object
      [("layers", .list
        [.null,
          .object [("id", .text "a"), ("type", .text "mvt"),
            ("config", .object [("dataId", .text "d")])],
          .object [("id", .text "b"), ("type", .text "arc"),
            ("config", .object [("dataId", .text "d")])]])])])])]

theorem ofFields_layerwise_mixed : ∃ whole solo, ofFields .null mixedDocument = .ok whole ∧
    whole.report.count? = some ⟨3, 1, 2⟩ ∧ Layerwise .null mixedDocument whole solo := by
  obtain ⟨whole, hwhole, hcount⟩ : ∃ whole, ofFields .null mixedDocument = .ok whole ∧
      whole.report.count? = some ⟨3, 1, 2⟩ := ⟨_, rfl, rfl⟩
  obtain ⟨solo, hsolo⟩ := ofFields_layerwise hwhole
  exact ⟨whole, solo, hwhole, hcount, hsolo⟩

end CompiledMap

end MapLayers
