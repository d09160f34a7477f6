import MapLayers.Json.Access

/-!
# Widget requests

What a widget asks of the aggregation service. Every kind of request has its own fields after those
that all requests share. Some fields are required, some allow certain values only, and two kinds have
a rule that ties two fields together. The parameters of a request hold the fields that are not null.
A caller can give the items of a field as a fixed sequence, which is sent as a list.
-/

namespace MapLayers

/-- What a caller gives for a field: any value, or a fixed sequence of values. -/
inductive WidgetOption where
  | plain (value : Json)
  | sequence (items : List Json)

namespace WidgetOption

def isNull : WidgetOption → Bool
  | plain value => value.isNull
  | sequence _ => false

def truthy : WidgetOption → Bool
  | plain value => value.truthy
  | sequence items => !items.isEmpty

def hashable : WidgetOption → Bool
  | plain value => value.hashable
  | sequence items => items.all Json.hashable

def isTheText (option : WidgetOption) (s : String) : Bool :=
  match option with
  | plain value => value.isTheText s
  | sequence _ => false

/-- Equal to one of some values. No value of a document equals a fixed sequence. -/
def isOneOf (option : WidgetOption) (values : List Json) : Bool :=
  match option with
  | plain value => values.any value.same
  | sequence _ => false

def literal : WidgetOption → String
  | plain value => value.literal
  | sequence [item] => "(" ++ item.literal ++ ",)"
  | sequence items => "(" ++ ", ".intercalate (Json.literals items) ++ ")"

def toJson : WidgetOption → Json
  | plain value => value
  | sequence items => .list items

def sequenceNames : List String := ["feature_ids", "columns", "ticks", "split_by_category_values"]

/-- An option as a document writes it, with a list in the place of a fixed sequence. -/
def ofEntry (entry : String × Json) : String × WidgetOption :=
  match entry.2 with
  | .list items =>
    (entry.1, if sequenceNames.contains entry.1 then sequence items else plain (.list items))
  | value => (entry.1, plain value)

end WidgetOption

abbrev WidgetOptions := Entries String WidgetOption

def WidgetOptions.of (options : WidgetOptions) (name : String) : WidgetOption :=
  (Entries.get? options name).getD (.plain .null)

/-- A field of a request by the words of its name. A field without choices takes any value. -/
structure WidgetField where
  words : List String
  required : Bool
  choices : List Json

namespace WidgetField

def free (words : List String) : WidgetField := ⟨words, false, []⟩

def needed (words : List String) : WidgetField := ⟨words, true, []⟩

def choice (words : List String) (choices : List Json) : WidgetField := ⟨words, false, choices⟩

def neededChoice (words : List String) (choices : List Json) : WidgetField :=
  ⟨words, true, choices⟩

def capitalized (word : String) : String :=
  match word.toList with
  | [] => ""
  | c :: rest => String.ofList (c.toUpper :: rest)

def name (f : WidgetField) : String := "_".intercalate f.words

/-- The name under which the service receives the field. -/
def param (f : WidgetField) : String :=
  match f.words with
  | [] => ""
  | first :: rest => first ++ String.join (rest.map capitalized)

/-- A field with choices is null or one of them; a list or an object cannot be looked up. -/
def check (f : WidgetField) (option : WidgetOption) : Result Unit :=
  if f.choices.isEmpty || option.isNull then .ok ()
  else if !option.hashable then .error .typeMismatch
  else if option.isOneOf f.choices then .ok ()
  else .error (.unsupportedChoice f.param option.literal)

end WidgetField

inductive WidgetKind where
  | category
  | features
  | formula
  | histogram
  | range
  | scatter
  | table
  | timeSeries
  deriving DecidableEq, Repr

namespace WidgetKind

open WidgetField (free needed choice neededChoice)

def texts (names : List String) : List Json := names.map .text

def operations : List Json := texts ["count", "avg", "min", "max", "sum"]

def formulaOperations : List Json := operations ++ texts ["custom"]

def dateGroups : List Json := texts ["year", "month", "week", "day", "hour", "minute", "second"]

def tileResolutions : List Json := [.float 0.25, .float 0.5, .int 1, .int 2, .int 4]

def sharedFields : List WidgetField :=
  [free ["spatial", "filter"],
    choice ["spatial", "filters", "mode"] (texts ["center", "intersects", "contains"]),
    free ["filters"],
    free ["filter", "owner"]]

def ownFields : WidgetKind → List WidgetField
  | category =>
    [needed ["column"], choice ["operation"] operations, free ["operation", "column"],
      choice ["join", "operation"] operations]
  | features =>
    [needed ["feature", "ids"], needed ["columns"],
      neededChoice ["data", "type"] (texts ["points", "lines", "polygons"]), free ["z"],
      free ["limit"], choice ["tile", "resolution"] tileResolutions]
  | formula =>
    [needed ["column"], choice ["operation"] formulaOperations, free ["operation", "exp"],
      choice ["join", "operation"] operations]
  | histogram =>
    [needed ["column"], needed ["ticks"], choice ["operation"] operations,
      choice ["join", "operation"] operations]
  | range => [needed ["column"]]
  | scatter =>
    [needed ["x", "axis", "column"], needed ["y", "axis", "column"],
      choice ["x", "axis", "join", "operation"] operations,
      choice ["y", "axis", "join", "operation"] operations]
  | table =>
    [needed ["columns"], free ["sort", "by"], choice ["sort", "direction"] (texts ["asc", "desc"]),
      choice ["sort", "by", "column", "type"] (texts ["number", "string", "date"]),
      free ["offset"], free ["limit"]]
  | timeSeries =>
    [needed ["column"], neededChoice ["step", "size"] dateGroups, free ["step", "multiplier"],
      choice ["operation"] operations, free ["operation", "column"],
      choice ["join", "operation"] operations, free ["split", "by", "category"],
      free ["split", "by", "category", "limit"], free ["split", "by", "category", "values"]]

def fields (kind : WidgetKind) : List WidgetField := sharedFields ++ kind.ownFields

/-- Requests for points need a zoom level, and custom formulas an expression. -/
def checkTogether (kind : WidgetKind) (options : WidgetOptions) : Result Unit :=
  match kind with
  | features =>
    if (options.of "data_type").isTheText "points" && (options.of "z").isNull then
      .error .missingZoom
    else .ok ()
  | formula =>
    if (options.of "operation").isTheText "custom" && !(options.of "operation_exp").truthy then
      .error .missingExpression
    else .ok ()
  | _ => .ok ()

end WidgetKind

/-- A request with its options; an option that is not given is null. -/
structure WidgetRequest where
  kind : WidgetKind
  options : WidgetOptions

namespace WidgetRequest

/-- Every option belongs to a field, and every required field has an option. -/
def fits {α : Type} (fields : List WidgetField) (options : Entries String α) : Bool :=
  options.all (fun entry => fields.any fun f => f.name = entry.1)
    && fields.all (fun f => !f.required || Entries.has options f.name)

/-- A request from its options by name. -/
def ofOptions (kind : WidgetKind) (options : WidgetOptions) : Result WidgetRequest := do
  if !fits kind.fields options then throw .typeMismatch
  kind.fields.forM fun f => f.check (options.of f.name)
  kind.checkTogether options
  return ⟨kind, options⟩

/-- A request from its options as a document writes them. -/
def make (kind : WidgetKind) (options : Json.Fields) : Result WidgetRequest :=
  ofOptions kind (options.map WidgetOption.ofEntry)

def value (r : WidgetRequest) (f : WidgetField) : WidgetOption := r.options.of f.name

/-- The parameters that are sent: every field that is not null, under its own name. -/
def params (r : WidgetRequest) : Json.Fields :=
  r.kind.fields.filterMap fun f =>
    let value := r.value f
    if value.isNull then none else some (f.param, value.toJson)

end WidgetRequest

/-- The part of the map that is in view. -/
structure ViewState where
  zoom : Json
  latitude : Json
  longitude : Json

namespace ViewState

def fields : List WidgetField :=
  [.needed ["zoom"], .needed ["latitude"], .needed ["longitude"]]

def make (options : Json.Fields) : Result ViewState :=
  if WidgetRequest.fits fields options then
    .ok ⟨Json.fieldOf options "zoom", Json.fieldOf options "latitude",
      Json.fieldOf options "longitude"⟩
  else .error .typeMismatch

/-- The parameters that are sent, null ones as well. -/
def params (v : ViewState) : Json.Fields :=
  [("zoom", v.zoom), ("latitude", v.latitude), ("longitude", v.longitude)]

end ViewState

end MapLayers
