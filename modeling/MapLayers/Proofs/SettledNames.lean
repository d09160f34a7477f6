import MapLayers.Proofs.ScaleFaults
import MapLayers.Proofs.ScaleRuns
import MapLayers.Proofs.Values

/-!
# The name that a reader settles on

A color or a size that may have been aggregated is read under the first of its names that a row has. Rows
that have none of them fail and leave the accessor as it was. With the first row that has one the name is
settled: from then on every row is read under it, present or not. So on rows that all have the same first
name, an accessor answers as if it looked the name up anew in every row.
-/

namespace MapLayers

namespace Reader

/-- The names under which a column may stand: its own, then with the aggregation as written and in upper
case. -/
def names (name : String) : Json → List String
  | .text suffix =>
    if suffix = "" then [name]
    else [name, name ++ "_" ++ suffix, name ++ "_" ++ Text.upper suffix]
  | _ => [name]

def firstName? (names : List String) (columns : Json.Fields) : Option String :=
  names.find? columns.has

theorem keysFor_eq {name : String} {aggregation : Json} {keys : List Json}
    (h : keysFor (.text name) aggregation = .ok keys) :
    keys = (names name aggregation).map .text := by
  unfold keysFor at h
  cases aggregation with
  | text suffix =>
    by_cases hsuffix : suffix = ""
    · simp_all [Json.truthy, names]
    · simp_all [Json.truthy, names, Json.display]
  | _ =>
    split at h
    · simp_all [names]
    · simp at h

theorem notFound_names (name : String) (aggregation : Json) :
    notFound ((names name aggregation).map .text) = .noAccessorKey (names name aggregation) := by
  cases aggregation with
  | text suffix => by_cases hsuffix : suffix = "" <;> simp [names, notFound, hsuffix, Json.display]
  | _ => rfl

theorem firstPresent_eq (columns : Json.Fields) (names : List String) :
    firstPresent (.object columns) (names.map .text) =
      .ok ((firstName? names columns).map .text) := by
  induction names with
  | nil => rfl
  | cons name rest ih =>
    rw [List.map_cons, firstPresent, ih]
    cases hhas : Entries.has columns name <;>
      simp [Json.contains, firstName?, hhas, pure, Except.pure]

theorem select_of_has {columns : Json.Fields} {name : String} (h : columns.has name = true) :
    (Json.object columns).select (.text name) = .ok (Json.fieldOf columns name) := by
  obtain ⟨value, hvalue⟩ := Option.isSome_iff_exists.mp h
  simp [Json.select, Json.fieldOf, hvalue]

theorem has_of_firstName? {names : List String} {columns : Json.Fields} {name : String}
    (h : firstName? names columns = some name) : columns.has name = true :=
  List.find?_some h

theorem findSome?_of_firstName? {names : List String} {columns : Json.Fields} {name : String}
    (h : firstName? names columns = some name) :
    names.findSome? (Entries.get? columns) = some (Json.fieldOf columns name) := by
  obtain ⟨value, hvalue⟩ := Option.isSome_iff_exists.mp (has_of_firstName? h)
  obtain ⟨before, after, rfl, hbefore⟩ := (List.find?_eq_some_iff_append.mp h).2
  have hnone : before.findSome? (Entries.get? columns) = none := by
    rw [List.findSome?_eq_none_iff]
    intro other hother
    simpa [Entries.has] using hbefore other hother
  rw [List.findSome?_append, hnone, Option.none_or, List.findSome?_cons, hvalue, Json.fieldOf, hvalue]
  rfl

theorem read_eq {r : Reader} {names : List String} (hkeys : r.keys = names.map .text)
    (settled : Option String) (columns : Json.Fields) :
    r.read (settled.map .text) (.object columns) =
      match settled.or (firstName? names columns) with
      | some name => (.ok (Json.fieldOf columns name), some (.text name))
      | none => (.error (notFound r.keys), none) := by
  cases settled with
  | some name => rfl
  | none =>
    rw [Option.map_none, read, hkeys, firstPresent_eq, Option.none_or]
    cases hfirst : firstName? names columns with
    | none => rfl
    | some name =>
      have hselect := select_of_has (has_of_firstName? hfirst)
      simp only [Option.map_some, hselect]

end Reader

namespace Accessor

open Reader (firstName?)

/-- What a color or a size gives for a value that has been read; no other accessor has a scale. -/
def scaled : Accessor → Json → Result Json
  | color _ scale alpha _, value => (scale.value value).bind (colorOfShade alpha value)
  | size _ scale _, value => scale.value value
  | _, value => .ok value

/-- How an accessor is made that reads a column of a name: as a color or as a size. -/
inductive ReadsColumn (name : String) (aggregation data : Json) (a : Accessor) : Prop
  | color {channel : Channel} {spec : ColorSpec} : spec.field.field "name" = .ok (.text name) →
    spec.aggregation = aggregation → forColor channel spec data = .ok a →
    ReadsColumn name aggregation data a
  | size {channel : Channel} {spec : SizeSpec} : spec.field.field "name" = .ok (.text name) →
    spec.aggregation = aggregation → forSize channel spec data = .ok a →
    ReadsColumn name aggregation data a

/-- The parts of an accessor that applies a scale to what a reader finds under one of some names. -/
structure Parts (a : Accessor) (names : List String) (features : Bool) where
  reader : Reader
  scale : Scale
  rule : Json → Json → Result Json
  keys : reader.keys = names.map .text
  notFound : Reader.notFound reader.keys = .noAccessorKey names
  fresh : scale.keptBreaks = none
  call : ∀ row info kept,
    a.callWith row info kept = readScaled reader scale features row kept rule
  scaled : ∀ value, a.scaled value = (scale.value value).bind (rule value)

theorem colorScale_keptBreaks {name kind colorRange data : Json} {scale : Scale}
    (h : colorScale name kind colorRange data = .ok scale) : scale.keptBreaks = none := by
  simp only [colorScale, Result.bind_eq_ok_iff] at h
  obtain ⟨scaleKind, -, h⟩ := h
  split at h
  · rw [← Except.ok.inj h]
    rfl
  · rw [Result.bind_eq_ok_iff] at h
    obtain ⟨listed, -, h⟩ := h
    split at h
    · simp only [Result.bind_eq_ok_iff, Result.pure_eq_ok_iff] at h
      obtain ⟨domain, -, colors, -, _, -, rfl⟩ := h
      rfl
    · simp only [Result.bind_eq_ok_iff] at h
      obtain ⟨domain, -, listed, -, h⟩ := h
      split at h
      · simp only [Result.bind_eq_ok_iff, Result.pure_eq_ok_iff] at h
        obtain ⟨colors, -, _, -, rfl⟩ := h
        rfl
      · rw [← Except.ok.inj h]
        rfl

theorem sizeScale_keptBreaks {name data : Json} {spec : SizeSpec} {scale : Scale}
    (h : sizeScale name spec data = .ok scale) : scale.keptBreaks = none := by
  unfold sizeScale at h
  split at h
  · rw [Result.bind_eq_ok_iff] at h
    obtain ⟨kind, -, h⟩ := h
    split at h
    · simp only [Result.bind_eq_ok_iff, Result.pure_eq_ok_iff] at h
      obtain ⟨_, rfl, entries, -, rfl⟩ := h
      rfl
    · simp only [Result.bind_eq_ok_iff, Result.pure_eq_ok_iff] at h
      obtain ⟨domain, -, _, rfl, entries, -, rfl⟩ := h
      rfl
  · rw [← Except.ok.inj h]
    rfl

theorem keys_of_new {channel : Channel} {name : String} {aggregation : Json} {reader : Reader}
    (h : Reader.new channel (.text name) aggregation = .ok reader) :
    reader.keys = (Reader.names name aggregation).map .text := by
  simp only [Reader.new, Result.bind_eq_ok_iff, Result.pure_eq_ok_iff] at h
  obtain ⟨keys, hkeys, rfl⟩ := h
  exact Reader.keysFor_eq hkeys

theorem ReadsColumn.parts {a : Accessor} {name : String} {aggregation data : Json}
    (h : ReadsColumn name aggregation data a) :
    Nonempty (Parts a (Reader.names name aggregation) (Row.isFeatureData data)) := by
  cases h with
  | @color channel spec hname haggregation hmade =>
    simp only [forColor, hname, haggregation, Result.ok_bind, Result.bind_eq_ok_iff,
      Result.pure_eq_ok_iff] at hmade
    obtain ⟨column, -, scale, hscale, alpha, -, reader, hreader, rfl⟩ := hmade
    have hkeys := keys_of_new hreader
    exact
      ⟨{ reader := reader
         scale := scale
         rule := colorOfShade alpha
         keys := hkeys
         notFound := by rw [hkeys, Reader.notFound_names]
         fresh := colorScale_keptBreaks hscale
         call := fun _ _ _ => rfl
         scaled := fun _ => rfl }⟩
  | @size channel spec hname haggregation hmade =>
    simp only [forSize, hname, haggregation, Result.ok_bind, Result.bind_eq_ok_iff,
      Result.pure_eq_ok_iff] at hmade
    obtain ⟨scale, hscale, reader, hreader, rfl⟩ := hmade
    have hkeys := keys_of_new hreader
    exact
      ⟨{ reader := reader
         scale := scale
         rule := fun _ size => .ok size
         keys := hkeys
         notFound := by rw [hkeys, Reader.notFound_names]
         fresh := sizeScale_keptBreaks hscale
         call := fun _ _ _ => rfl
         scaled := fun value => by
          cases hvalue : scale.value value <;> simp [scaled, hvalue, Except.bind] }⟩

theorem readScaled_fault {reader : Reader} {scale : Scale} {features : Bool} {row found : Json}
    {kept : Kept} {name : Option Json} {fault : Fault} {rule : Json → Json → Result Json}
    (hfound : columns features row = .ok found)
    (hread : reader.read kept.name found = (.error fault, name)) :
    readScaled reader scale features row kept rule = (.error fault, ⟨name, kept.breaks⟩) := by
  simp only [readScaled, hfound, hread]

theorem readScaled_value {reader : Reader} {scale : Scale} {features : Bool}
    {row found value : Json} {kept : Kept} {name : Option Json} {rule : Json → Json → Result Json}
    (hfound : columns features row = .ok found)
    (hread : reader.read kept.name found = (.ok value, name)) :
    readScaled reader scale features row kept rule =
      (((scale.keeping kept.breaks).value value).bind (rule value),
        ⟨name, ((scale.keeping kept.breaks).afterCall value).keptBreaks⟩) := by
  simp only [readScaled, hfound, hread]

/-- A call on a row that has columns. -/
structure ColumnsCall (features : Bool) where
  row : Json
  info : Option Json
  columns : Json.Fields
  reads : Accessor.columns features row = .ok (.object columns)

variable {features : Bool}

def ColumnsCall.args (c : ColumnsCall features) : List Json := c.row :: c.info.toList

def keptAfter (a : Accessor) (kept : Kept) (calls : List (List Json)) : Kept :=
  calls.foldl (fun kept args => (a.call args kept).2) kept

theorem outcomes_append (a : Accessor) (kept : Kept) (first second : List (List Json)) :
    a.outcomes kept (first ++ second) =
      a.outcomes kept first ++ a.outcomes (a.keptAfter kept first) second := by
  induction first generalizing kept with
  | nil => rfl
  | cons args rest ih => exact congrArg ((a.call args kept).1 :: ·) (ih _)

theorem keptAfter_append (a : Accessor) (kept : Kept) (first second : List (List Json)) :
    a.keptAfter kept (first ++ second) = a.keptAfter (a.keptAfter kept first) second :=
  List.foldl_append

/-- What an accessor answers for columns once its reader has, or has not, settled on a name. -/
def answer (a : Accessor) (names : List String) (settled : Option String)
    (columns : Json.Fields) : Result Json :=
  match settled with
  | some name => a.scaled (Json.fieldOf columns name)
  | none => .error (.noAccessorKey names)

namespace Parts

variable {a : Accessor} {names : List String} {kept : Kept} {settled : Option String}

/-- What is kept for an accessor is the name settled on, and breaks that its scale has. -/
structure Keeps (p : Parts a names features) (kept : Kept) (settled : Option String) : Prop where
  name : kept.name = settled.map .text
  breaks : (p.scale.keeping kept.breaks).Coherent

theorem keeping_none (p : Parts a names features) : p.scale.keeping none = p.scale := by
  rw [← p.fresh]
  rfl

theorem keeps_nothing (p : Parts a names features) : p.Keeps .nothing none :=
  ⟨rfl, Scale.coherent_of_none rfl⟩

theorem Keeps.call {p : Parts a names features} (h : p.Keeps kept settled)
    (c : ColumnsCall features) :
    (a.call c.args kept).1 = a.answer names (settled.or (firstName? names c.columns)) c.columns ∧
      p.Keeps (a.call c.args kept).2 (settled.or (firstName? names c.columns)) := by
  have hcall : a.call c.args kept = readScaled p.reader p.scale features c.row kept p.rule := by
    rw [← p.call c.row c.info kept]
    cases hinfo : c.info <;> simp [ColumnsCall.args, Accessor.call, hinfo]
  have hread := Reader.read_eq p.keys settled c.columns
  rw [← h.name] at hread
  cases hname : settled.or (firstName? names c.columns) with
  | none =>
    simp only [hname] at hread
    rw [hcall, readScaled_fault c.reads hread]
    exact ⟨congrArg Except.error p.notFound, rfl, h.breaks⟩
  | some name =>
    simp only [hname] at hread
    rw [hcall, readScaled_value c.reads hread]
    refine ⟨?_, rfl, ?_⟩
    · have hvalue := h.breaks.value_eq (Json.fieldOf c.columns name)
      rw [Scale.setup_scale, Scale.keeping_keeping, p.keeping_none] at hvalue
      simp only [hvalue, answer, p.scaled]
    · have hbreaks := h.breaks.afterCall (Json.fieldOf c.columns name)
      rwa [← Scale.keeping_afterCall, Scale.keeping_keeping] at hbreaks

theorem Keeps.calls_unsettled {p : Parts a names features} (h : p.Keeps kept none)
    {calls : List (ColumnsCall features)}
    (hcalls : ∀ c ∈ calls, firstName? names c.columns = none) :
    a.outcomes kept (calls.map ColumnsCall.args) =
        calls.map (fun _ => .error (.noAccessorKey names)) ∧
      p.Keeps (a.keptAfter kept (calls.map ColumnsCall.args)) none := by
  induction calls generalizing kept with
  | nil => exact ⟨rfl, h⟩
  | cons c rest ih =>
    obtain ⟨hfirst, hrest⟩ := List.forall_mem_cons.mp hcalls
    obtain ⟨houtcome, hkeeps⟩ := h.call c
    rw [hfirst, Option.or_none] at houtcome hkeeps
    obtain ⟨houtcomes, hafter⟩ := ih hkeeps hrest
    exact ⟨List.cons_eq_cons.mpr ⟨houtcome, houtcomes⟩, hafter⟩

theorem Keeps.calls_settled {p : Parts a names features} {name : String}
    (h : p.Keeps kept (some name)) (calls : List (ColumnsCall features)) :
    a.outcomes kept (calls.map ColumnsCall.args) =
        calls.map (fun c => a.scaled (Json.fieldOf c.columns name)) ∧
      p.Keeps (a.keptAfter kept (calls.map ColumnsCall.args)) (some name) := by
  induction calls generalizing kept with
  | nil => exact ⟨rfl, h⟩
  | cons c rest ih =>
    obtain ⟨houtcome, hkeeps⟩ := h.call c
    obtain ⟨houtcomes, hafter⟩ := ih hkeeps
    exact ⟨List.cons_eq_cons.mpr ⟨houtcome, houtcomes⟩, hafter⟩

theorem Keeps.calls_settling {p : Parts a names features} {name : String} (h : p.Keeps kept none)
    {c : ColumnsCall features} (hfirst : firstName? names c.columns = some name)
    (later : List (ColumnsCall features)) :
    a.outcomes kept ((c :: later).map ColumnsCall.args) =
        (c :: later).map (fun d => a.scaled (Json.fieldOf d.columns name)) ∧
      p.Keeps (a.keptAfter kept ((c :: later).map ColumnsCall.args)) (some name) := by
  obtain ⟨houtcome, hkeeps⟩ := h.call c
  rw [hfirst, Option.none_or] at houtcome hkeeps
  obtain ⟨houtcomes, hafter⟩ := hkeeps.calls_settled later
  exact ⟨List.cons_eq_cons.mpr ⟨houtcome, houtcomes⟩, hafter⟩

end Parts

/-- What an accessor answers that looks its name up anew in every row. -/
def answerAnew (a : Accessor) (names : List String) (columns : Json.Fields) : Result Json :=
  match names.findSome? (Entries.get? columns) with
  | some value => a.scaled value
  | none => .error (.noAccessorKey names)

/-- How an accessor settles on the first of its names that a row has, and stays with it. -/
structure Settles (a : Accessor) (names : List String) (features : Bool) : Prop where
  before : ∀ calls : List (ColumnsCall features),
    (∀ c ∈ calls, firstName? names c.columns = none) →
    a.outcomes .nothing (calls.map ColumnsCall.args) =
        calls.map (fun _ => .error (.noAccessorKey names)) ∧
      (a.keptAfter .nothing (calls.map ColumnsCall.args)).name = none
  since : ∀ (earlier : List (ColumnsCall features)) (c : ColumnsCall features)
      (later : List (ColumnsCall features)) (name : String),
    (∀ d ∈ earlier, firstName? names d.columns = none) →
    firstName? names c.columns = some name →
    a.outcomes .nothing ((earlier ++ c :: later).map ColumnsCall.args) =
        earlier.map (fun _ => .error (.noAccessorKey names)) ++
          (c :: later).map (fun d => a.scaled (Json.fieldOf d.columns name)) ∧
      (a.keptAfter .nothing ((earlier ++ c :: later).map ColumnsCall.args)).name = some (.text name)
  found : ∀ value, Result.FailsOnly (fun fault => fault.kind ≠ .key) (a.scaled value)
  alike : ∀ (calls : List (ColumnsCall features)) (name : String),
    (∀ c ∈ calls, firstName? names c.columns = some name) →
    a.outcomes .nothing (calls.map ColumnsCall.args) =
      calls.map fun c => a.answerAnew names c.columns

theorem answerAnew_of_firstName? {a : Accessor} {names : List String} {columns : Json.Fields}
    {name : String} (h : firstName? names columns = some name) :
    a.answerAnew names columns = a.scaled (Json.fieldOf columns name) := by
  simp only [answerAnew, Reader.findSome?_of_firstName? h]

theorem scaled_computes (a : Accessor) (value : Json) : Result.Computes (a.scaled value) := by
  unfold scaled
  split <;> simp

/-- A color or a size is read under the first of its names that a row has, and from then on under no
other. -/
theorem column_settles {a : Accessor} {name : String} {aggregation data : Json}
    (h : ReadsColumn name aggregation data a) :
    Settles a (Reader.names name aggregation) (Row.isFeatureData data) := by
  obtain ⟨p⟩ := h.parts
  refine
    { before := fun calls hcalls => ?_
      since := fun earlier c later name hearlier hfirst => ?_
      found := fun value => (a.scaled_computes value).imp fun _ => Fault.kind_ne_key
      alike := fun calls name hcalls => ?_ }
  · obtain ⟨houtcomes, hafter⟩ := p.keeps_nothing.calls_unsettled hcalls
    exact ⟨houtcomes, hafter.name⟩
  · obtain ⟨hfailed, hbefore⟩ := p.keeps_nothing.calls_unsettled hearlier
    obtain ⟨houtcomes, hafter⟩ := hbefore.calls_settling hfirst later
    rw [List.map_append, outcomes_append, keptAfter_append, hfailed, houtcomes]
    exact ⟨rfl, hafter.name⟩
  · cases calls with
    | nil => rfl
    | cons c later =>
      rw [(p.keeps_nothing.calls_settling (hcalls c (by simp)) later).1]
      exact List.map_congr_left fun d hd => (answerAnew_of_firstName? (hcalls d hd)).symm

/-- A color of the column `n`, which may have been summed up. -/
def summedColor : ColorSpec where
  field := .object [("name", .text "n")]
  scale := .text "ordinal"
  aggregation := .text "sum"
  colorRange := .object [("colorMap", .list
    [.list [.int 1, .text "#ff0000"], .list [.int 2, .text "#00ff00"]])]
  opacity := .null

/-- Rows without the column, with its sum at null, with both and again without. -/
def summedRows : List Json :=
  [.object [("x", .int 1)], .object [("n_sum", .null)],
    .object [("n", .int 1), ("n_sum", .int 2)], .object []]

/-- A null settles the name, and a row that has an earlier one is read under it all the same. -/
theorem column_settles_summed : ∃ a, forColor .fillColor summedColor (.list []) = .ok a ∧
    Settles a (Reader.names "n" (.text "sum")) false ∧
    a.outcomes .nothing (summedRows.map fun row => [row]) =
      [.error (.noAccessorKey ["n", "n_sum", "n_SUM"]),
        .ok (.list [.int 134, .int 141, .int 145, .int 0]),
        .ok (.list [.int 0, .int 255, .int 0, .int 255]),
        .ok (.list [.int 134, .int 141, .int 145, .int 0])] := by
  have hmade : forColor .fillColor summedColor (.list []) = .ok _ := rfl
  exact ⟨_, hmade, column_settles (.color rfl rfl hmade), rfl⟩

end Accessor

end MapLayers
