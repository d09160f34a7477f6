import MapLayers.CompiledMap
import MapLayers.Proofs.Results
import MapLayers.Proofs.Values
import MapLayers.Validation

/-!
# Which documents are refused

A document is refused for its outer structure alone: the map config, its version, the settings, the
part with the layers, and the layer list. Everything below that is the concern of single layers and
datasets. The compiler and the validator check this structure each in its own way, and agree on it.
-/

namespace MapLayers

namespace MapDocument

variable (fields : Json.Fields)

def mapConfigValue : Json := Json.fieldOf fields "keplerMapConfig"

def versionValue : Json := Json.fieldOf (mapConfigValue fields).fieldsOrNone "version"

def settingsValue : Json := Json.fieldOf (mapConfigValue fields).fieldsOrNone "config"

def visStateValue : Json := Json.fieldOf (settingsValue fields).fieldsOrNone "visState"

/-- The part with the layers: the settings themselves when they have no part of their own for it. -/
def layerPart : Json.Fields :=
  if (visStateValue fields).isNull then (settingsValue fields).fieldsOrNone
  else (visStateValue fields).fieldsOrNone

def layersValue : Json := Json.fieldOf (layerPart fields) "layers"

/-- The structural faults of a document. -/
def Malformed : Prop :=
  ¬(mapConfigValue fields).isObject ∨
  versionValue fields ≠ .text "v1" ∨
  ((settingsValue fields).truthy ∧ ¬(settingsValue fields).isObject) ∨
  (¬(visStateValue fields).isNull ∧ ¬(visStateValue fields).isObject) ∨
  ((layersValue fields).truthy ∧ ¬(layersValue fields).isList)

/-- What a document without structural faults is read as. -/
def outline : MapDocument :=
  ⟨fields, (settingsValue fields).fieldsOrNone, layerPart fields, (layersValue fields).itemsOrNone⟩

variable {fields}

theorem configOf_ok (hmap : (mapConfigValue fields).isObject = true)
    (hversion : versionValue fields = .text "v1")
    (hsettings : (settingsValue fields).truthy = true → (settingsValue fields).isObject = true) :
    configOf fields = .ok (settingsValue fields).fieldsOrNone := by
  unfold configOf
  unfold versionValue at hversion
  unfold settingsValue at hsettings ⊢
  unfold mapConfigValue at *
  cases hm : Json.fieldOf fields "keplerMapConfig" with
  | object mapConfig =>
    rw [hm, Json.fieldsOrNone] at hversion hsettings
    simp [hversion, Json.isTheText, supportedVersion, Json.fieldsOrNone,
      Json.orElse_object hsettings]
  | _ => simp [hm, Json.isObject] at hmap

theorem visStateOf_ok
    (h : (visStateValue fields).isNull = true ∨ (visStateValue fields).isObject = true) :
    visStateOf (settingsValue fields).fieldsOrNone = .ok (layerPart fields) := by
  unfold visStateOf layerPart visStateValue at *
  cases hv : Json.fieldOf (settingsValue fields).fieldsOrNone "visState" with
  | null => simp [Json.isNull]
  | object visState => simp [Json.isNull, Json.fieldsOrNone]
  | _ => simp [hv, Json.isNull, Json.isObject] at h

theorem layersOf_ok
    (h : (layersValue fields).truthy = true → (layersValue fields).isList = true) :
    layersOf (layerPart fields) = .ok (layersValue fields).itemsOrNone := by
  unfold layersOf
  unfold layersValue at *
  rw [Json.orElse_list h]

/-- A document without structural faults, fault by fault. -/
theorem not_malformed_iff : ¬Malformed fields ↔
    (mapConfigValue fields).isObject = true ∧ versionValue fields = .text "v1" ∧
    ((settingsValue fields).truthy = true → (settingsValue fields).isObject = true) ∧
    ((visStateValue fields).isNull = true ∨ (visStateValue fields).isObject = true) ∧
    ((layersValue fields).truthy = true → (layersValue fields).isList = true) := by
  simp only [Malformed, not_or, not_and, ne_eq, Classical.not_not]
  refine and_congr_right fun _ => and_congr_right fun _ => and_congr_right fun _ =>
    and_congr_left fun _ => ?_
  cases (visStateValue fields).isNull <;> simp

theorem ofFields_of_not_malformed (h : ¬Malformed fields) :
    ofFields fields = .ok (outline fields) := by
  obtain ⟨hmap, hversion, hsettings, hvis, hlayers⟩ := not_malformed_iff.mp h
  simp only [ofFields, bind, Except.bind, configOf_ok hmap hversion hsettings,
    visStateOf_ok hvis, layersOf_ok hlayers]
  rfl

theorem configOf_inv {config : Json.Fields} (h : configOf fields = .ok config) :
    (mapConfigValue fields).isObject = true ∧ versionValue fields = .text "v1" ∧
    ((settingsValue fields).truthy = true → (settingsValue fields).isObject = true) ∧
    config = (settingsValue fields).fieldsOrNone := by
  unfold configOf at h
  unfold versionValue settingsValue mapConfigValue
  split at h
  · next mapConfig hm =>
    rw [hm]
    simp only [Json.fieldsOrNone, Json.isObject, true_and]
    dsimp only at h
    split at h
    · simp at h
    · next hversion =>
      have htext : Json.fieldOf mapConfig "version" = .text "v1" :=
        (Json.isTheText_iff _ _).mp (by simpa [supportedVersion] using hversion)
      split at h
      · next found hfound =>
        rw [Except.ok.inj h] at hfound
        refine ⟨htext, fun htruthy => ?_, ?_⟩
        · rw [Json.orElse_of_truthy htruthy] at hfound
          rw [hfound]
        · by_cases htruthy : (Json.fieldOf mapConfig "config").truthy = true
          · rw [Json.orElse_of_truthy htruthy] at hfound
            rw [hfound]
          · rw [Json.orElse_object fun ht => absurd ht htruthy] at hfound
            exact (Json.object.inj hfound).symm
      · simp at h
  · simp at h

theorem visStateOf_inv {visState : Json.Fields}
    (h : visStateOf (settingsValue fields).fieldsOrNone = .ok visState) :
    ((visStateValue fields).isNull = true ∨ (visStateValue fields).isObject = true) ∧
    visState = layerPart fields := by
  unfold visStateOf at h
  unfold layerPart visStateValue
  split at h
  · next hv =>
    rw [hv]
    exact ⟨.inl rfl, (Except.ok.inj h).symm⟩
  · next found hv =>
    rw [hv]
    exact ⟨.inr rfl, (Except.ok.inj h).symm⟩
  · simp at h

theorem layersOf_inv {layers : List Json} (h : layersOf (layerPart fields) = .ok layers) :
    (layersValue fields).truthy = true → (layersValue fields).isList = true := by
  unfold layersOf at h
  unfold layersValue
  intro htruthy
  rw [Json.orElse_of_truthy htruthy] at h
  split at h
  · next hl => rw [hl]; rfl
  · simp at h

/-- A document is read exactly when it has no structural fault. -/
theorem ofFields_eq_ok_iff {document : MapDocument} :
    ofFields fields = .ok document ↔ ¬Malformed fields ∧ document = outline fields := by
  constructor
  · intro h
    have hwell : ¬Malformed fields := by
      rw [not_malformed_iff]
      simp only [ofFields, bind, Except.bind] at h
      split at h
      · simp at h
      · next config hconfig =>
        obtain ⟨hmap, hversion, hsettings, rfl⟩ := configOf_inv hconfig
        split at h
        · simp at h
        · next visState hvis =>
          obtain ⟨hpart, rfl⟩ := visStateOf_inv hvis
          split at h
          · simp at h
          · next layers hlayers =>
            exact ⟨hmap, hversion, hsettings, hpart, layersOf_inv hlayers⟩
    rw [ofFields_of_not_malformed hwell] at h
    exact ⟨hwell, (Except.ok.inj h).symm⟩
  · rintro ⟨hwell, rfl⟩
    exact ofFields_of_not_malformed hwell

theorem refused_of_malformed (h : Malformed fields) : ∃ cause, ofFields fields = .error cause := by
  cases hread : ofFields fields with
  | error cause => exact ⟨cause, rfl⟩
  | ok document => exact absurd h (ofFields_eq_ok_iff.mp hread).1

/-- The structure is a matter of the map config alone. -/
theorem malformed_congr {other : Json.Fields}
    (h : Json.fieldOf fields "keplerMapConfig" = Json.fieldOf other "keplerMapConfig") :
    Malformed fields ↔ Malformed other := by
  have hconfig : mapConfigValue fields = mapConfigValue other := h
  have hsettings : settingsValue fields = settingsValue other := by
    simp only [settingsValue, hconfig]
  have hvis : visStateValue fields = visStateValue other := by
    simp only [visStateValue, hsettings]
  have hlayers : layersValue fields = layersValue other := by
    simp only [layersValue, layerPart, hvis, hsettings]
  simp only [Malformed, versionValue, hconfig, hsettings, hvis, hlayers]

end MapDocument

namespace Validation

open MapDocument (Malformed)

variable {fields : Json.Fields}

theorem configOf_eq_ok_iff {config : Json.Fields} :
    configOf fields = .ok config ↔ MapDocument.configOf fields = .ok config := by
  unfold configOf MapDocument.configOf
  cases Json.fieldOf fields "keplerMapConfig" with
  | object mapConfig =>
    cases hversion : (Json.fieldOf mapConfig "version").isTheText MapDocument.supportedVersion with
    | true =>
      cases hsettings : (Json.fieldOf mapConfig "config").orElse (.object []) <;>
        simp [hversion, hsettings]
    | false => simp [hversion]
  | _ => simp

theorem layersOf_eq_ok_iff {config : Json.Fields} {layers : List Json} :
    layersOf config = .ok layers ↔
      ∃ visState, MapDocument.visStateOf config = .ok visState ∧
        MapDocument.layersOf visState = .ok layers := by
  unfold layersOf MapDocument.visStateOf MapDocument.layersOf
  cases Json.fieldOf config "visState" with
  | null => cases hl : (Json.fieldOf config "layers").orElse (.list []) <;> simp [Json.isNull, hl]
  | object visState =>
    cases hl : (Json.fieldOf visState "layers").orElse (.list []) <;> simp [Json.isNull, hl]
  | _ => simp [Json.isNull]

/-- A structural fault is always found: the run ends with an error in its report. -/
theorem run_of_malformed (h : Malformed fields) :
    ∃ report, run fields = .ok report ∧ report.errors ≠ [] := by
  unfold run
  cases hconfig : configOf fields with
  | error finding => exact ⟨_, rfl, by simp [Report.addError]⟩
  | ok config =>
    cases hlayers : layersOf config with
    | error finding =>
      refine ⟨_, by simp only [layerReport, hlayers]; rfl, ?_⟩
      show _ ++ [finding] ≠ []
      simp
    | ok layers =>
      obtain ⟨visState, hvis, hlist⟩ := layersOf_eq_ok_iff.mp hlayers
      have hread : MapDocument.ofFields fields = .ok ⟨fields, config, visState, layers⟩ := by
        simp only [MapDocument.ofFields, bind, Except.bind, configOf_eq_ok_iff.mp hconfig, hvis,
          hlist]
        rfl
      exact absurd h (MapDocument.ofFields_eq_ok_iff.mp hread).1

end Validation

namespace Dataset

theorem requireText_fault {value : Json} {field : String} {fault : Fault}
    (h : requireText value field = .error fault) : fault.kind = .value := by
  unfold requireText at h
  split at h
  · split at h
    · rw [← Except.error.inj h]
      rfl
    · simp at h
  · rw [← Except.error.inj h]
    rfl

theorem ofFields_fault {fields : Json.Fields} {fault : Fault}
    (h : ofFields fields = .error fault) : fault.kind = .value := by
  unfold ofFields at h
  dsimp only at h
  split at h
  · rw [← Except.error.inj h]
    rfl
  · cases hid : requireText (Json.fieldOf fields "id") "id" with
    | error other =>
      simp only [hid, bind, Except.bind] at h
      rw [← Except.error.inj h]
      exact requireText_fault hid
    | ok id => simp [hid, pure, Except.pure, bind, Except.bind] at h

theorem ofEntry_fault {position : Nat} {entry : Json} {fault : Fault}
    (h : ofEntry position entry = .error fault) : fault.kind = .value := by
  unfold ofEntry at h
  split at h
  · exact ofFields_fault h
  · rw [← Except.error.inj h]
    rfl

/-- Leaving malformed entries out never fails, whatever the entries are. -/
theorem wellFormed_total (position : Nat) (entries : List Json) :
    ∃ loaded, wellFormed position entries = .ok loaded := by
  induction entries generalizing position with
  | nil => exact ⟨_, rfl⟩
  | cons entry rest ih =>
    obtain ⟨loaded, hloaded⟩ := ih (position + 1)
    unfold wellFormed
    cases hentry : ofEntry position entry with
    | ok dataset => exact ⟨_, by rw [hloaded]; rfl⟩
    | error fault => exact ⟨_, by simp [ofEntry_fault hentry, hloaded]; rfl⟩

theorem loadWellFormed_total (value : Json) : ∃ loaded, loadWellFormed value = .ok loaded := by
  cases value with
  | list entries => exact wellFormed_total 0 entries
  | _ => exact ⟨_, rfl⟩

end Dataset

namespace CompiledMap

/-- Nothing that a document of the right outer structure holds can fail its compilation. -/
theorem compile_total (token : Json) (document : MapDocument) :
    ∃ compilation, compile token document = .ok compilation := by
  obtain ⟨loaded, hloaded⟩ := Dataset.loadWellFormed_total (document.field "datasets")
  exact ⟨_, by rw [compile, hloaded]; rfl⟩

theorem compiles_of_not_malformed (token : Json) {fields : Json.Fields}
    (h : ¬MapDocument.Malformed fields) : ∃ compilation, ofFields token fields = .ok compilation := by
  rw [ofFields, MapDocument.ofFields_of_not_malformed h]
  exact compile_total token _

/-- A document is refused exactly for a structural fault, and then the validator finds an error too;
every other document is compiled. -/
theorem ofFields_refuses_malformed (token : Json) (fields : Json.Fields) :
    ((∃ fault, ofFields token fields = .error fault ∧ fault.kind = .document) ↔
      MapDocument.Malformed fields) ∧
    (¬MapDocument.Malformed fields → ∃ compilation, ofFields token fields = .ok compilation) ∧
    (∀ fault, ofFields token fields = .error fault →
      ∃ report, Validation.run fields = .ok report ∧ report.errors ≠ []) := by
  have hcompiles : ¬MapDocument.Malformed fields →
      ∃ compilation, ofFields token fields = .ok compilation := by
    intro hwell
    rw [ofFields, MapDocument.ofFields_of_not_malformed hwell]
    exact compile_total token _
  have hrefuses : MapDocument.Malformed fields →
      ∃ fault, ofFields token fields = .error fault ∧ fault.kind = .document := by
    intro hbad
    unfold ofFields
    cases hread : MapDocument.ofFields fields with
    | error cause => exact ⟨_, rfl, rfl⟩
    | ok document => exact absurd hbad (MapDocument.ofFields_eq_ok_iff.mp hread).1
  have hbad : ∀ fault, ofFields token fields = .error fault → MapDocument.Malformed fields := by
    intro fault hfault
    by_cases hwell : MapDocument.Malformed fields
    · exact hwell
    · obtain ⟨compilation, hok⟩ := hcompiles hwell
      simp [hok] at hfault
  refine ⟨⟨?_, hrefuses⟩, hcompiles, ?_⟩
  · rintro ⟨fault, hfault, -⟩
    exact hbad fault hfault
  · intro fault hfault
    exact Validation.run_of_malformed (hbad fault hfault)

end CompiledMap

end MapLayers
