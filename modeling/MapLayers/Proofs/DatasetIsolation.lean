import MapLayers.Proofs.DatasetEntries

/-!
# What the datasets of a document can change

A layer reads one dataset at most: the first well-formed one that has the id it asks for. Two documents
that agree on these, and on everything that is no dataset, are compiled to the same map with the same
report. In particular a malformed entry, an entry whose id an earlier one has already and an entry that
no layer asks for can be added anywhere.
-/

namespace MapLayers

open MapDocument (layerList outline)

namespace LayerOutcome

/-- One of the entries is a layer on the dataset with an id. -/
def AskedFor (entries : List Json) (id : Json) : Prop :=
  ∃ entry ∈ entries, ∃ layer, layerOf entry = .ok layer ∧ layer.dataId = id

variable {surroundings : Surroundings} {datasets others : List Dataset} {entry : Json}

theorem prepare_congr (h : ∀ layer, layerOf entry = .ok layer →
      Dataset.find? datasets layer.dataId = Dataset.find? others layer.dataId) :
    prepare surroundings datasets entry = prepare surroundings others entry := by
  unfold prepare
  cases hlayer : layerOf entry with
  | error fault => rfl
  | ok layer =>
    have hdataset : datasetOf datasets layer = datasetOf others layer := by
      unfold datasetOf
      rw [h layer hlayer]
    simp only [Result.ok_bind, hdataset]

theorem ofEntry_congr (h : ∀ layer, layerOf entry = .ok layer →
      Dataset.find? datasets layer.dataId = Dataset.find? others layer.dataId) :
    ofEntry surroundings datasets entry = ofEntry surroundings others entry := by
  simp only [ofEntry, prepare_congr h]

end LayerOutcome

open LayerOutcome (AskedFor)

theorem Gathered.run_congr {surroundings : Surroundings} {datasets others : List Dataset}
    {entries : List Json}
    (h : ∀ id, AskedFor entries id → Dataset.find? datasets id = Dataset.find? others id) :
    run surroundings datasets entries = run surroundings others entries := by
  unfold run
  generalize empty = start
  induction entries generalizing start with
  | nil => rfl
  | cons entry rest ih =>
    have hentry : ∀ layer, LayerOutcome.layerOf entry = .ok layer →
        Dataset.find? datasets layer.dataId = Dataset.find? others layer.dataId :=
      fun layer hlayer => h _ ⟨entry, List.mem_cons_self, layer, hlayer, rfl⟩
    have hrest : ∀ id, AskedFor rest id → Dataset.find? datasets id = Dataset.find? others id := by
      rintro id ⟨other, hother, hasked⟩
      exact h id ⟨other, List.mem_cons_of_mem _ hother, hasked⟩
    rw [List.foldl_cons, List.foldl_cons, LayerOutcome.ofEntry_congr hentry, ih hrest]

namespace MapDocument

variable {fields others : Json.Fields}

/-- Two documents that differ in their datasets at most. -/
def AgreeOffDatasets (fields others : Json.Fields) : Prop :=
  ∀ key, key ≠ "datasets" → Json.fieldOf fields key = Json.fieldOf others key

/-- The same document with another list of datasets. -/
def withDatasets (fields : Json.Fields) (entries : List Json) : Json.Fields :=
  Entries.set fields "datasets" (.list entries)

theorem withDatasets_agree (fields : Json.Fields) (entries : List Json) :
    AgreeOffDatasets (withDatasets fields entries) fields :=
  fun _ hkey => Json.fieldOf_set_of_ne _ _ hkey.symm

theorem AgreeOffDatasets.symm (h : AgreeOffDatasets fields others) :
    AgreeOffDatasets others fields :=
  fun key hkey => (h key hkey).symm

theorem AgreeOffDatasets.trans {third : Json.Fields} (h : AgreeOffDatasets fields others)
    (hthird : AgreeOffDatasets others third) : AgreeOffDatasets fields third :=
  fun key hkey => (h key hkey).trans (hthird key hkey)

theorem AgreeOffDatasets.mapConfig (h : AgreeOffDatasets fields others) :
    mapConfigValue fields = mapConfigValue others :=
  h "keplerMapConfig" (by decide)

theorem AgreeOffDatasets.outline_eq (h : AgreeOffDatasets fields others) :
    outline fields = { outline others with fields := fields } := by
  unfold outline layersValue layerPart visStateValue settingsValue
  rw [h.mapConfig]

theorem AgreeOffDatasets.layerList_eq (h : AgreeOffDatasets fields others) :
    layerList fields = layerList others :=
  congrArg MapDocument.layers h.outline_eq

/-- Whether a document is refused, and why, does not depend on its datasets. -/
theorem AgreeOffDatasets.ofFields_eq (h : AgreeOffDatasets fields others) :
    ofFields fields = (ofFields others).map fun document => { document with fields := fields } := by
  have hconfig : configOf fields = configOf others := by
    unfold configOf
    rw [h "keplerMapConfig" (by decide)]
  unfold ofFields
  rw [hconfig]
  cases configOf others with
  | error cause => rfl
  | ok config =>
    cases hvis : visStateOf config with
    | error cause => simp [hvis, bind, Except.bind, Except.map]
    | ok visState =>
      cases hlayers : layersOf visState <;>
        simp [hvis, hlayers, bind, Except.bind, Except.map, pure, Except.pure]

/-- Both documents have the same first well-formed dataset, or none, for every id that a layer of the
first one asks for. -/
def SameDatasets (fields others : Json.Fields) : Prop :=
  ∀ id, AskedFor (layerList fields) id →
    Dataset.firstWellFormed? fields id = Dataset.firstWellFormed? others id

end MapDocument

namespace CompiledMap

open MapDocument (AgreeOffDatasets SameDatasets withDatasets)

variable {fields others : Json.Fields}

/-- The map that a document is compiled to, with its report. -/
def mapAndReport (token : Json) (fields : Json.Fields) : Result (CompiledMap × CompileReport) :=
  (ofFields token fields).map fun whole => (whole.map, whole.report)

theorem surroundings_of_agree (h : AgreeOffDatasets fields others) (token : Json) :
    surroundings token (outline fields) = surroundings token (outline others) := by
  have htoken : (outline fields).field "token" = (outline others).field "token" :=
    h "token" (by decide)
  rw [h.outline_eq] at htoken ⊢
  simp only [surroundings, tokenFor, htoken]
  rfl

theorem around_of_agree (h : AgreeOffDatasets fields others) (token : Json)
    (layers : List LayerDescriptor) :
    around token (outline fields) layers = around token (outline others) layers := by
  have hfield : ∀ key, key ≠ "datasets" →
      (outline fields).field key = (outline others).field key := h
  rw [h.outline_eq] at hfield ⊢
  simp only [around, tokenFor, hfield "token" (by decide), hfield "id" (by decide),
    hfield "title" (by decide), hfield "description" (by decide),
    hfield "createdAt" (by decide), hfield "updatedAt" (by decide)]
  rfl

theorem mapAndReport_of_refused {cause : DocumentFault} (token : Json)
    (h : MapDocument.ofFields fields = .error cause) :
    mapAndReport token fields = .error (.document cause) := by
  simp [mapAndReport, ofFields, h, Except.map]

theorem mapAndReport_of_read {document : MapDocument} (token : Json)
    (h : MapDocument.ofFields fields = .ok document) :
    ∃ loaded, Dataset.loadWellFormed (Json.fieldOf fields "datasets") = .ok loaded ∧
      mapAndReport token fields =
        let gathered := Gathered.run (surroundings token (outline fields)) loaded.1
          (layerList fields).reverse
        .ok (around token (outline fields) gathered.layers,
          reportOf (layerList fields).length gathered) := by
  obtain ⟨hwell, -⟩ := MapDocument.ofFields_eq_ok_iff.mp h
  obtain ⟨whole, hwhole⟩ := compiles_of_not_malformed token hwell
  obtain ⟨-, loaded, hloaded, rfl⟩ := ofFields_inv hwhole
  refine ⟨loaded, hloaded, ?_⟩
  rw [mapAndReport, hwhole]
  rfl

/-- Two documents that agree on the datasets their layers read are compiled alike. -/
theorem mapAndReport_congr (token : Json) (hagree : AgreeOffDatasets fields others)
    (hsame : SameDatasets fields others) :
    mapAndReport token fields = mapAndReport token others := by
  have hread := hagree.ofFields_eq
  cases hothers : MapDocument.ofFields others with
  | error cause =>
    rw [hothers] at hread
    rw [mapAndReport_of_refused token hread, mapAndReport_of_refused token hothers]
  | ok document =>
    rw [hothers] at hread
    obtain ⟨loaded, hloaded, hfirst⟩ := mapAndReport_of_read token hread
    obtain ⟨otherLoaded, hotherLoaded, hsecond⟩ := mapAndReport_of_read token hothers
    have hrun : Gathered.run (surroundings token (outline others)) loaded.1
        (layerList others).reverse =
        Gathered.run (surroundings token (outline others)) otherLoaded.1
          (layerList others).reverse := by
      refine Gathered.run_congr ?_
      rintro id ⟨entry, hentry, hasked⟩
      rw [Dataset.loadWellFormed_eq hloaded, Dataset.loadWellFormed_eq hotherLoaded]
      exact hsame id ⟨entry, hagree.layerList_eq ▸ List.mem_reverse.mp hentry, hasked⟩
    rw [hfirst, hsecond, hagree.layerList_eq, surroundings_of_agree hagree]
    simp only [hrun, around_of_agree hagree]

end CompiledMap

namespace Dataset

/-- An entry that is malformed, that has the id of an entry before it, or that no layer asks for. -/
def Unread (layers before : List Json) (entry : Json) : Prop :=
  MalformedEntry entry ∨
  ∃ dataset, ofEntry? entry = some dataset ∧
    ((∃ other ∈ before, ∃ first, ofEntry? other = some first ∧ first.id = dataset.id) ∨
      ¬AskedFor layers (.text dataset.id))

theorem find?_append_cons {before after : List Dataset} {dataset : Dataset} {id : Json}
    (h : id = .text dataset.id → find? before id ≠ none) :
    find? (before ++ dataset :: after) id = find? (before ++ after) id := by
  unfold find? at h ⊢
  rw [List.find?_append, List.find?_append, List.find?_cons]
  cases hid : id.isTheText dataset.id with
  | false => rfl
  | true =>
    obtain ⟨found, hfound⟩ := Option.ne_none_iff_exists'.mp (h ((Json.isTheText_iff _ _).mp hid))
    rw [hfound]
    rfl

theorem find?_ne_none_of_mem {entries : List Json} {other : Json} {dataset : Dataset}
    (hmem : other ∈ entries) (hdataset : ofEntry? other = some dataset) :
    find? (entries.filterMap ofEntry?) (.text dataset.id) ≠ none := by
  intro hnone
  have hnot := List.find?_eq_none.mp hnone dataset (List.mem_filterMap.mpr ⟨other, hmem, hdataset⟩)
  exact hnot ((Json.isTheText_iff _ _).mpr rfl)

theorem Unread.find?_eq {layers before after : List Json} {entry id : Json}
    (h : Unread layers before entry) (hasked : AskedFor layers id) :
    find? ((before ++ entry :: after).filterMap ofEntry?) id =
      find? ((before ++ after).filterMap ofEntry?) id := by
  rw [List.filterMap_append, List.filterMap_append]
  rcases h with hmalformed | ⟨dataset, hdataset, hidle⟩
  · rw [List.filterMap_cons_none (ofEntry?_eq_none_iff.mpr hmalformed)]
  · rw [List.filterMap_cons_some hdataset]
    refine find?_append_cons fun hid => ?_
    rcases hidle with ⟨other, hother, first, hfirst, hsame⟩ | hunasked
    · rw [hid, ← hsame]
      exact find?_ne_none_of_mem hother hfirst
    · exact absurd (hid ▸ hasked) hunasked

end Dataset

namespace CompiledMap

open Dataset (Unread)
open MapDocument (AgreeOffDatasets SameDatasets withDatasets withDatasets_agree)

variable {fields : Json.Fields}

theorem sameDatasets_of_unread {before after : List Json} {entry : Json}
    (h : Unread (layerList fields) before entry) :
    SameDatasets (withDatasets fields (before ++ entry :: after))
      (withDatasets fields (before ++ after)) := by
  intro id hasked
  rw [(withDatasets_agree fields _).layerList_eq] at hasked
  simp only [Dataset.firstWellFormed?, withDatasets, Json.fieldOf_set_self, Json.itemsOrNone_list]
  exact h.find?_eq hasked

/-- Datasets reach the map and its report through the first well-formed one for each id that a layer
asks for, and an entry that no layer reads can be put anywhere. -/
theorem datasets_isolated (token : Json) (fields : Json.Fields) :
    (∀ others, AgreeOffDatasets fields others → SameDatasets fields others →
      mapAndReport token fields = mapAndReport token others) ∧
    (∀ before entry after, Unread (layerList fields) before entry →
      mapAndReport token (withDatasets fields (before ++ entry :: after)) =
        mapAndReport token (withDatasets fields (before ++ after))) := by
  constructor
  · intro others hagree hsame
    exact mapAndReport_congr token hagree hsame
  · intro before entry after hunread
    exact mapAndReport_congr token
      ((withDatasets_agree fields _).trans (withDatasets_agree fields _).symm)
      (sameDatasets_of_unread hunread)

/-- The dataset of `mixedDocument` behind a malformed entry and before another one with its id. -/
def crowdedDatasets : List Json :=
  [.text "junk", .object [("id", .text "d"), ("data", .list [])],
    .object [("id", .text "d"), ("data", .list [.object []])],
    .object [("id", .text "unused")]]

theorem datasets_isolated_crowded :
    AgreeOffDatasets (withDatasets mixedDocument crowdedDatasets) mixedDocument ∧
    SameDatasets (withDatasets mixedDocument crowdedDatasets) mixedDocument ∧
    mapAndReport .null (withDatasets mixedDocument crowdedDatasets) =
      mapAndReport .null mixedDocument := by
  have hagree := withDatasets_agree mixedDocument crowdedDatasets
  have hsame : SameDatasets (withDatasets mixedDocument crowdedDatasets) mixedDocument := by
    rintro id ⟨entry, hentry, layer, hlayer, rfl⟩
    have hd : layer.dataId = .text "d" := by
      rw [hagree.layerList_eq] at hentry
      rcases hentry with _ | ⟨_, _ | ⟨_, _ | ⟨_, _ | _⟩⟩⟩
      · cases hlayer
      · cases hlayer
        rfl
      · cases hlayer
        rfl
    rw [hd]
    rfl
  exact ⟨hagree, hsame, (datasets_isolated .null _).1 mixedDocument hagree hsame⟩

end CompiledMap

end MapLayers
