import Mathlib.Data.List.Nodup
import Mathlib.Data.List.Perm.Subperm
import MapLayers.Proofs.Entries
import MapLayers.Proofs.Results
import MapLayers.Proofs.Values
import MapLayers.Widget.Request

/-!
# Requests without loss

A widget request is accepted exactly if each choice is allowed and the fields that belong together fit. What
is sent then tells all that was given: the parameter of a field is the camel case of its name, the name can be
read off it, so that no two fields of a kind share one, and every field is found again under its own.
-/

namespace MapLayers

namespace CamelCase

/-- Underscores are left out, and the letter after one is a capital. -/
def join : List Char → List Char
  | '_' :: c :: rest => c.toUpper :: join rest
  | c :: rest => c :: join rest
  | [] => []

/-- The camel case of a name that has underscores between its words. -/
def ofName (name : String) : String := String.ofList (join name.toList)

/-- The letters up to the first capital one, and the words that capital letters begin. -/
def split : List Char → List Char × List (List Char)
  | [] => ([], [])
  | c :: rest =>
    let (first, others) := split rest
    if c.isUpper then ([], (c.toLower :: first) :: others) else (c :: first, others)

/-- The words of a text in camel case. -/
def words (s : String) : List String :=
  let (first, others) := split s.toList
  String.ofList first :: others.map String.ofList

/-- A word without capital letters. -/
def IsWord (w : String) : Prop := w.toList ≠ [] ∧ w.toList.all Char.isLower = true

instance (w : String) : Decidable (IsWord w) := inferInstanceAs (Decidable (_ ∧ _))

theorem IsWord.isLower {w : String} (h : IsWord w) : ∀ c ∈ w.toList, c.isLower = true :=
  List.all_eq_true.mp h.2

theorem forall_isLower {p : Char → Prop} (h : ∀ n, n < 26 → p (Char.ofNat (97 + n))) {c : Char}
    (hc : c.isLower = true) : p c := by
  have hval : (decide (c.val ≥ 97) && decide (c.val ≤ 122)) = true := hc
  obtain ⟨hlow, hhigh⟩ : 97 ≤ c.toNat ∧ c.toNat ≤ 122 := by
    simpa [UInt32.le_iff_toNat_le] using hval
  have hletter := h (c.toNat - 97) (by omega)
  rwa [Nat.add_sub_cancel' hlow, Char.ofNat_toNat] at hletter

/-- A small letter is told apart from its capital form and found again from it. -/
theorem capital_of_isLower {c : Char} (h : c.isLower = true) :
    c.isUpper = false ∧ c.toUpper.isUpper = true ∧ c.toUpper.toLower = c :=
  forall_isLower
    (p := fun c => c.isUpper = false ∧ c.toUpper.isUpper = true ∧ c.toUpper.toLower = c) (by decide) h

theorem ne_underscore_of_isLower {c : Char} (h : c.isLower = true) : c ≠ '_' ∧ c.toUpper ≠ '_' :=
  forall_isLower (p := fun c => c ≠ '_' ∧ c.toUpper ≠ '_') (by decide) h

theorem join_append {letters : List Char} (h : ∀ c ∈ letters, c.isLower = true) (rest : List Char) :
    join (letters ++ rest) = letters ++ join rest := by
  induction letters with
  | nil => rfl
  | cons c letters ih =>
    obtain ⟨hc, hletters⟩ := List.forall_mem_cons.mp h
    rw [List.cons_append, join, ih hletters, List.cons_append]
    intro _ _ hunderscore
    exact absurd hunderscore (ne_underscore_of_isLower hc).1

theorem join_capitalized {w : String} (h : IsWord w) (rest : List Char) :
    join ('_' :: w.toList ++ rest) = (WidgetField.capitalized w).toList ++ join rest := by
  have hletters := h.isLower
  obtain ⟨c, letters, hw⟩ := List.exists_cons_of_ne_nil h.1
  rw [hw] at hletters
  rw [WidgetField.capitalized, hw, String.toList_ofList, List.cons_append, List.cons_append, join,
    join_append (List.forall_mem_cons.mp hletters).2, List.cons_append]

theorem join_words {ws : List String} (h : ∀ w ∈ ws, IsWord w) :
    join (ws.flatMap fun w => '_' :: w.toList) = (String.join (ws.map WidgetField.capitalized)).toList := by
  rw [String.toList_join]
  induction ws with
  | nil => rfl
  | cons w ws ih =>
    obtain ⟨hw, hws⟩ := List.forall_mem_cons.mp h
    rw [List.flatMap_cons, join_capitalized hw, ih hws, List.map_cons, List.flatMap_cons]

theorem toList_intercalate_underscore (first : String) (rest : List String) :
    ("_".intercalate (first :: rest)).toList =
      first.toList ++ rest.flatMap fun w => '_' :: w.toList := by
  rw [String.toList_intercalate]
  induction rest generalizing first with
  | nil => simp
  | cons w rest ih =>
    rw [List.map_cons, List.map_cons, List.intercalate_cons_cons, ← List.map_cons, ih]
    simp

/-- The parameter of a field is the camel case of its name. -/
theorem ofName_name {f : WidgetField} (h : ∀ w ∈ f.words, IsWord w) : ofName f.name = f.param := by
  unfold ofName WidgetField.name WidgetField.param
  cases hwords : f.words with
  | nil => rfl
  | cons first rest =>
    obtain ⟨hfirst, hrest⟩ := List.forall_mem_cons.mp (hwords ▸ h)
    rw [toList_intercalate_underscore, join_append hfirst.isLower, join_words hrest,
      ← String.toList_append, String.ofList_toList]

theorem underscore_notMem_capitalized {w : String} (h : IsWord w) :
    '_' ∉ (WidgetField.capitalized w).toList := by
  have hletters := h.isLower
  obtain ⟨c, letters, hw⟩ := List.exists_cons_of_ne_nil h.1
  rw [hw] at hletters
  obtain ⟨hc, hletters⟩ := List.forall_mem_cons.mp hletters
  rw [WidgetField.capitalized, hw, String.toList_ofList, List.mem_cons, not_or]
  exact ⟨(ne_underscore_of_isLower hc).2.symm, fun hmem => (ne_underscore_of_isLower (hletters _ hmem)).1 rfl⟩

theorem underscore_notMem_param {f : WidgetField} (h : ∀ w ∈ f.words, IsWord w) :
    '_' ∉ f.param.toList := by
  unfold WidgetField.param
  cases hwords : f.words with
  | nil => exact List.not_mem_nil
  | cons first rest =>
    obtain ⟨hfirst, hrest⟩ := List.forall_mem_cons.mp (hwords ▸ h)
    rw [String.toList_append, String.toList_join, List.mem_append, not_or, List.mem_flatMap]
    refine ⟨fun hmem => (ne_underscore_of_isLower (hfirst.isLower _ hmem)).1 rfl, ?_⟩
    rintro ⟨word, hword, hmem⟩
    obtain ⟨w, hw, rfl⟩ := List.mem_map.mp hword
    exact underscore_notMem_capitalized (hrest w hw) hmem

theorem split_append {letters : List Char} (h : ∀ c ∈ letters, c.isLower = true) (rest : List Char) :
    split (letters ++ rest) = (letters ++ (split rest).1, (split rest).2) := by
  induction letters with
  | nil => rfl
  | cons c letters ih =>
    obtain ⟨hc, hletters⟩ := List.forall_mem_cons.mp h
    rw [List.cons_append, split, ih hletters]
    simp [(capital_of_isLower hc).1]

theorem split_capitalized {w : String} (h : IsWord w) (rest : List Char) :
    split ((WidgetField.capitalized w).toList ++ rest) =
      ([], (w.toList ++ (split rest).1) :: (split rest).2) := by
  have hletters := h.isLower
  obtain ⟨c, letters, hw⟩ := List.exists_cons_of_ne_nil h.1
  rw [hw] at hletters
  obtain ⟨hc, hletters⟩ := List.forall_mem_cons.mp hletters
  obtain ⟨-, hupper, hlower⟩ := capital_of_isLower hc
  rw [WidgetField.capitalized, hw, String.toList_ofList, List.cons_append, split,
    split_append hletters]
  simp [hupper, hlower]

theorem split_join {ws : List String} (h : ∀ w ∈ ws, IsWord w) :
    split (String.join (ws.map WidgetField.capitalized)).toList = ([], ws.map String.toList) := by
  rw [String.toList_join]
  induction ws with
  | nil => rfl
  | cons w ws ih =>
    obtain ⟨hw, hws⟩ := List.forall_mem_cons.mp h
    rw [List.map_cons, List.flatMap_cons, split_capitalized hw, ih hws]
    simp

/-- The words of a field can be read off its parameter. -/
theorem words_param {f : WidgetField} (hne : f.words ≠ []) (h : ∀ w ∈ f.words, IsWord w) :
    words f.param = f.words := by
  obtain ⟨first, rest, hwords⟩ := List.exists_cons_of_ne_nil hne
  rw [hwords] at h
  obtain ⟨hfirst, hrest⟩ := List.forall_mem_cons.mp h
  rw [words, WidgetField.param, hwords, String.toList_append, split_append hfirst.isLower,
    split_join hrest]
  simp [Function.comp_def]

end CamelCase

namespace WidgetKind

theorem words_isWord (kind : WidgetKind) :
    ∀ f ∈ kind.fields, f.words ≠ [] ∧ ∀ w ∈ f.words, CamelCase.IsWord w := by
  cases kind <;> decide

theorem words_nodup (kind : WidgetKind) : (kind.fields.map WidgetField.words).Nodup := by
  cases kind <;> decide

theorem words_param (kind : WidgetKind) {f : WidgetField} (hf : f ∈ kind.fields) :
    CamelCase.words f.param = f.words :=
  let ⟨hne, hwords⟩ := kind.words_isWord f hf
  CamelCase.words_param hne hwords

theorem ofName_name (kind : WidgetKind) {f : WidgetField} (hf : f ∈ kind.fields) :
    CamelCase.ofName f.name = f.param :=
  CamelCase.ofName_name (kind.words_isWord f hf).2

theorem underscore_notMem_param (kind : WidgetKind) {f : WidgetField} (hf : f ∈ kind.fields) :
    '_' ∉ f.param.toList :=
  CamelCase.underscore_notMem_param (kind.words_isWord f hf).2

theorem name_param (kind : WidgetKind) {f : WidgetField} (hf : f ∈ kind.fields) :
    "_".intercalate (CamelCase.words f.param) = f.name := by
  rw [kind.words_param hf]
  rfl

/-- No two fields of a kind share a parameter. -/
theorem params_nodup (kind : WidgetKind) : (kind.fields.map WidgetField.param).Nodup := by
  refine List.Nodup.of_map CamelCase.words ?_
  have hwords : (kind.fields.map WidgetField.param).map CamelCase.words =
      kind.fields.map WidgetField.words := by
    rw [List.map_map]
    exact List.map_congr_left fun f hf => kind.words_param hf
  rw [hwords]
  exact kind.words_nodup

end WidgetKind

namespace WidgetOptions

/-- Options for the fields of a kind, with all that are required and with values to choose by where there is
a choice. -/
structure Assigns (options : WidgetOptions) (kind : WidgetKind) : Prop where
  known : ∀ entry ∈ options, ∃ f ∈ kind.fields, f.name = entry.1
  given : ∀ f ∈ kind.fields, f.required = true → Entries.has options f.name = true
  hashable : ∀ f ∈ kind.fields, f.choices ≠ [] → (options.of f.name).hashable = true

/-- The rules for the options of a kind: choices are absent or allowed, a request for points tells the zoom
level, and a custom formula has an expression. -/
structure Allowed (options : WidgetOptions) (kind : WidgetKind) : Prop where
  choices : ∀ f ∈ kind.fields, f.choices ≠ [] →
    (options.of f.name).isNull = true ∨ (options.of f.name).isOneOf f.choices = true
  zoom : kind = .features → (options.of "data_type").isTheText "points" = true →
    (options.of "z").isNull = false
  expression : kind = .formula → (options.of "operation").isTheText "custom" = true →
    (options.of "operation_exp").truthy = true

variable {options : WidgetOptions} {kind : WidgetKind} {f : WidgetField}

theorem Assigns.fits (h : options.Assigns kind) : WidgetRequest.fits kind.fields options = true := by
  simp only [WidgetRequest.fits, Bool.and_eq_true, List.all_eq_true, List.any_eq_true, decide_eq_true_eq,
    Bool.or_eq_true, Bool.not_eq_true']
  refine ⟨h.known, fun f hf => ?_⟩
  cases hrequired : f.required with
  | false => exact .inl rfl
  | true => exact .inr (h.given f hf hrequired)

end WidgetOptions

open Result

theorem WidgetField.check_eq_ok_iff {f : WidgetField} {option : WidgetOption} :
    f.check option = .ok () ↔
      (f.choices ≠ [] →
        option.isNull = true ∨ option.hashable = true ∧ option.isOneOf f.choices = true) := by
  unfold check
  cases hchoices : f.choices with
  | nil => simp
  | cons choice others =>
    cases option.isNull <;> cases option.hashable <;> cases option.isOneOf (choice :: others) <;> simp

theorem WidgetField.check_fails {f : WidgetField} {option : WidgetOption}
    (h : f.choices ≠ [] → option.hashable = true) :
    FailsOnly (fun fault => fault.kind = .value) (f.check option) := by
  unfold check
  cases hchoices : f.choices with
  | nil => simp
  | cons choice others =>
    rw [h (by simp [hchoices])]
    cases option.isNull <;> cases option.isOneOf (choice :: others) <;> simp [Fault.kind]

theorem WidgetKind.checkTogether_eq_ok_iff {kind : WidgetKind} {options : WidgetOptions} :
    kind.checkTogether options = .ok () ↔
      (kind = .features → (options.of "data_type").isTheText "points" = true →
        (options.of "z").isNull = false) ∧
      (kind = .formula → (options.of "operation").isTheText "custom" = true →
        (options.of "operation_exp").truthy = true) := by
  cases kind <;> simp [checkTogether]

theorem WidgetKind.checkTogether_fails (kind : WidgetKind) (options : WidgetOptions) :
    FailsOnly (fun fault => fault.kind = .value) (kind.checkTogether options) := by
  cases kind <;> simp [checkTogether, Fault.kind]

namespace WidgetRequest

variable {kind : WidgetKind} {options : WidgetOptions} {r : WidgetRequest}

theorem ofOptions_eq (h : fits kind.fields options = true) : ofOptions kind options = do
    kind.fields.forM fun f => f.check (options.of f.name)
    kind.checkTogether options
    return ⟨kind, options⟩ := by
  rw [ofOptions, h]
  rfl

theorem ofOptions_inv (h : ofOptions kind options = .ok r) : r = ⟨kind, options⟩ := by
  cases hfits : fits kind.fields options with
  | false =>
    rw [ofOptions, hfits] at h
    exact absurd h throw_not_ok
  | true =>
    rw [ofOptions_eq hfits] at h
    simp only [bind_eq_ok_iff, pure_eq_ok_iff] at h
    obtain ⟨-, -, -, -, hr⟩ := h
    exact hr.symm

theorem ofOptions_succeeds_iff (h : options.Assigns kind) :
    Succeeds (ofOptions kind options) ↔ options.Allowed kind := by
  have hchecks : (kind.fields.forM fun f => f.check (options.of f.name)) = .ok () ↔
      ∀ f ∈ kind.fields, f.choices ≠ [] →
        (options.of f.name).isNull = true ∨ (options.of f.name).isOneOf f.choices = true := by
    rw [forM_eq_ok_iff]
    refine forall₂_congr fun f hf => ?_
    rw [WidgetField.check_eq_ok_iff]
    refine forall_congr' fun hchoices => ?_
    rw [h.hashable f hf hchoices]
    simp
  rw [ofOptions_eq h.fits]
  simp only [succeeds_bind, succeeds_pure, and_true]
  constructor
  · rintro ⟨⟨⟩, hfields, ⟨⟩, htogether⟩
    obtain ⟨hzoom, hexpression⟩ := WidgetKind.checkTogether_eq_ok_iff.mp htogether
    exact ⟨hchecks.mp hfields, hzoom, hexpression⟩
  · rintro ⟨hchoices, hzoom, hexpression⟩
    exact ⟨(), hchecks.mpr hchoices, (), WidgetKind.checkTogether_eq_ok_iff.mpr ⟨hzoom, hexpression⟩⟩

theorem ofOptions_fails (h : options.Assigns kind) :
    FailsOnly (fun fault => fault.kind = .value) (ofOptions kind options) := by
  rw [ofOptions_eq h.fits]
  simp only [failsOnly_bind, failsOnly_pure, WidgetKind.checkTogether_fails, implies_true, and_true]
  exact failsOnly_forM fun f hf => WidgetField.check_fails (h.hashable f hf)

theorem isNull_toJson {option : WidgetOption} (h : option.isNull = true) : option.toJson = .null := by
  cases option with
  | plain value => cases value <;> simp_all [WidgetOption.isNull, WidgetOption.toJson, Json.isNull]
  | sequence items => simp [WidgetOption.isNull] at h

theorem keys_params (r : WidgetRequest) : r.params.keys =
    (r.kind.fields.filter fun f => !(r.value f).isNull).map WidgetField.param := by
  unfold params Entries.keys
  induction r.kind.fields with
  | nil => rfl
  | cons f fields ih => cases hnull : (r.value f).isNull <;> simp [hnull, ih]

theorem params_distinct (r : WidgetRequest) : Entries.Distinct r.params := by
  rw [Entries.Distinct, keys_params]
  exact r.kind.params_nodup.sublist (List.filter_sublist.map _)

/-- Every field is found again under its own parameter. -/
theorem get?_params (r : WidgetRequest) {f : WidgetField} (hf : f ∈ r.kind.fields) :
    Entries.get? r.params f.param = if (r.value f).isNull then none else some (r.value f).toJson := by
  split
  · next hnull =>
    rw [Entries.get?_eq_none_iff, keys_params]
    intro hmem
    obtain ⟨g, hg, hparam⟩ := List.mem_map.mp hmem
    obtain ⟨hmem, hgiven⟩ := List.mem_filter.mp hg
    obtain rfl := List.inj_on_of_nodup_map r.kind.params_nodup hmem hf hparam
    simp [hnull] at hgiven
  · next hgiven =>
    refine Entries.get?_of_mem r.params_distinct (List.mem_filterMap.mpr ⟨f, hf, ?_⟩)
    simp [hgiven]

theorem fieldOf_params (r : WidgetRequest) {f : WidgetField} (hf : f ∈ r.kind.fields) :
    Json.fieldOf r.params f.param = (r.value f).toJson := by
  rw [Json.fieldOf, r.get?_params hf]
  split
  · next hnull => exact (isNull_toJson hnull).symm
  · rfl

end WidgetRequest

namespace Json

theorem sameFields_iff {a b : Fields} : sameFields a b = true ↔
    ∀ entry ∈ a, ∃ other, Entries.get? b entry.1 = some other ∧ same entry.2 other = true := by
  induction a with
  | nil => simp [sameFields]
  | cons entry rest ih =>
    obtain ⟨key, value⟩ := entry
    rw [List.forall_mem_cons, ← ih, sameFields]
    cases Entries.get? b key <;> simp

/-- Equal objects have equal values under every key. -/
theorem same_fieldOf {a b : Fields} (ha : Entries.Distinct a) (h : same (.object a) (.object b) = true)
    (key : String) : same (fieldOf a key) (fieldOf b key) = true := by
  simp only [same, Bool.and_eq_true, decide_eq_true_eq] at h
  obtain ⟨hlength, hfields⟩ := h
  have hfound := sameFields_iff.mp hfields
  cases hkey : Entries.get? a key with
  | some value =>
    obtain ⟨other, hother, hsame⟩ := hfound (key, value) (Entries.mem_of_get?_eq_some hkey)
    rw [fieldOf, fieldOf, hkey, hother]
    exact hsame
  | none =>
    -- As many keys as the first object has, all of them in the second, leave no room for another.
    have hsub : Entries.keys a ⊆ Entries.keys b := by
      intro other hmem
      obtain ⟨entry, hentry, rfl⟩ := List.mem_map.mp hmem
      obtain ⟨found, hget, -⟩ := hfound entry hentry
      exact List.mem_map.mpr ⟨_, Entries.mem_of_get?_eq_some hget, rfl⟩
    have hperm : (Entries.keys a).Perm (Entries.keys b) :=
      (List.subperm_of_subset ha hsub).perm_of_length_le (by simp [Entries.keys, hlength])
    have hother : Entries.get? b key = none := by
      rw [Entries.get?_eq_none_iff] at hkey ⊢
      exact fun hmem => hkey (hperm.mem_iff.mpr hmem)
    rw [fieldOf, fieldOf, hkey, hother]
    rfl

end Json

namespace WidgetRequest

/-- What the parameters of a request tell: every field that is not null once, under the camel case of its
name, those shared by all requests first, and fixed sequences as lists. No underscore is left in a key, the name
can be read off it, and no two fields share one. -/
structure Encodes (r : WidgetRequest) : Prop where
  order : r.params.keys = ((WidgetKind.sharedFields ++ r.kind.ownFields).filter fun f =>
    !(r.value f).isNull).map fun f => CamelCase.ofName f.name
  once : Entries.Distinct r.params
  bare : ∀ f ∈ r.kind.fields, '_' ∉ (CamelCase.ofName f.name).toList
  camel : ∀ f ∈ r.kind.fields, "_".intercalate (CamelCase.words (CamelCase.ofName f.name)) = f.name
  apart : (r.kind.fields.map fun f => CamelCase.ofName f.name).Nodup
  values : ∀ f ∈ r.kind.fields, Entries.get? r.params (CamelCase.ofName f.name) =
    if (r.value f).isNull then none else some (r.value f).toJson

theorem encodes (r : WidgetRequest) : r.Encodes where
  order := by
    rw [r.keys_params]
    exact List.map_congr_left fun f hf => (r.kind.ofName_name (List.mem_filter.mp hf).1).symm
  once := r.params_distinct
  bare f hf := by
    rw [r.kind.ofName_name hf]
    exact r.kind.underscore_notMem_param hf
  camel f hf := by
    rw [r.kind.ofName_name hf]
    exact r.kind.name_param hf
  apart := by
    rw [List.map_congr_left fun f hf => r.kind.ofName_name hf]
    exact r.kind.params_nodup
  values f hf := by
    rw [r.kind.ofName_name hf]
    exact r.get?_params hf

variable {r s : WidgetRequest}

/-- The fields of two requests are equal, a fixed sequence counting as the list of its items. -/
def SameFields (r s : WidgetRequest) : Prop :=
  ∀ f ∈ r.kind.fields, (r.value f).toJson.same (s.value f).toJson = true

/-- What the parameters of two requests have in common, their fields have. -/
theorem sameFields_of_params (hkind : s.kind = r.kind)
    (h : Json.same (.object r.params) (.object s.params) = true) : r.SameFields s := by
  intro f hf
  have hsame := Json.same_fieldOf r.params_distinct h f.param
  rwa [r.fieldOf_params hf, s.fieldOf_params (hkind ▸ hf)] at hsame

theorem toJson_eq_of_params (hkind : s.kind = r.kind) (h : r.params = s.params) :
    ∀ f ∈ r.kind.fields, (r.value f).toJson = (s.value f).toJson := by
  intro f hf
  rw [← r.fieldOf_params hf, ← s.fieldOf_params (hkind ▸ hf), h]

/-- Options of a request for points. -/
def pointsOptions : WidgetOptions :=
  [("feature_ids", .sequence [.text "f1", .text "f2"]), ("columns", .sequence [.text "name"]),
    ("data_type", .plain (.text "points")), ("z", .plain (.int 7)), ("tile_resolution", .plain (.float 0.5))]

/-- The same with lists for the sequences, in another order and with the numbers in another form. -/
def listedOptions : WidgetOptions :=
  [("z", .plain (.float 7)), ("data_type", .plain (.text "points")),
    ("columns", .plain (.list [.text "name"])), ("feature_ids", .plain (.list [.text "f1", .text "f2"])),
    ("tile_resolution", .plain (.float 0.5))]

end WidgetRequest

end MapLayers
