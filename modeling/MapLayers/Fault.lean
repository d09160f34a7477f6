import MapLayers.Json.Literal

/-!
# Failures

Every way in which a document, a setting or a request can be unusable, with the text that reports
show. An operation that does not fit its operands has no text of its own: reports show the name of
its class between angle brackets.
-/

namespace MapLayers

inductive FaultClass where
  | value
  | type
  | key
  | member
  | index
  | overflow
  | division
  | document
  | layer
  | layerType
  | missingFile
  | fileExists
  | directory
  | notDirectory
  | system
  | jsonText
  | decoding
  | unpaired
  | recursion
  | yamlToken
  | yamlStructure
  | yamlDocuments
  | geometryType
  | geometry
  | emptyPart
  deriving DecidableEq, Repr

namespace FaultClass

def label : FaultClass → String
  | value => "ValueError"
  | type => "TypeError"
  | key => "KeyError"
  | member => "AttributeError"
  | index => "IndexError"
  | overflow => "OverflowError"
  | division => "ZeroDivisionError"
  | document => "MapConfigError"
  | layer => "LayerCompileError"
  | layerType => "UnsupportedLayerTypeError"
  | missingFile => "FileNotFoundError"
  | fileExists => "FileExistsError"
  | directory => "IsADirectoryError"
  | notDirectory => "NotADirectoryError"
  | system => "OSError"
  | jsonText => "JSONDecodeError"
  | decoding => "UnicodeDecodeError"
  | unpaired => "UnicodeEncodeError"
  | recursion => "RecursionError"
  | yamlToken => "ScannerError"
  | yamlStructure => "ParserError"
  | yamlDocuments => "ComposerError"
  | geometryType => "GeometryTypeError"
  | geometry => "GEOSException"
  | emptyPart => "EmptyPartError"

end FaultClass

/-- What makes a map document unusable as a whole. -/
inductive DocumentFault where
  | noMapConfig
  | version (found : Json)
  | malformedConfig
  | malformedVisState
  | malformedLayers
  deriving Inhabited

/-- What makes one layer unusable. -/
inductive LayerFault where
  | notMapping
  | malformed (reason : String)
  | noDataset (dataId : Json)
  | noData (dataId : Json)
  deriving Inhabited

inductive Fault where
  | operation (kind : FaultClass)
  | expectedText (field : String)
  | expectedMapping (field : String)
  | expectedInteger (field : String)
  | expectedBool (field : String)
  | negativeIndent
  | settingsNotMapping
  | missingSettings (path : String)
  | expectedSchemaList
  | expectedDatasetList
  | expectedDataset (position : Nat)
  | document (cause : DocumentFault)
  | layer (cause : LayerFault)
  | unsupportedLayerType (found : Json)
  | unknownRule (key rule : String)
  | unsupportedColor (found : Json)
  | colorTooLong
  | unknownColor (specifier : String)
  | unsupportedScale (found : Json)
  | unsupportedAggregation (found : Json)
  | noAccessorKey (keys : List String)
  | unnamedAccessorKey (typeName : String)
  | unsupportedChoice (field : String) (literal : String)
  | missingZoom
  | missingExpression
  | expectedResponse (what : String)
  | expectedCategoryList
  | viewportLength (found : List Json)
  deriving Inhabited

namespace DocumentFault

def message : DocumentFault → String
  | noMapConfig => "Expected mapping for 'keplerMapConfig'"
  | version found => s!"Only support Kepler v1, got {found.literal}"
  | malformedConfig => "Expected mapping for 'keplerMapConfig.config'"
  | malformedVisState => "Expected mapping for 'keplerMapConfig.config.visState'"
  | malformedLayers => "Expected list for 'layers'"

end DocumentFault

namespace LayerFault

def message : LayerFault → String
  | notMapping => "Layer entry is not a mapping"
  | malformed reason => s!"Malformed layer: {reason}"
  | noDataset dataId => s!"No dataset matching dataId: {dataId.display}"
  | noData dataId => s!"No data loaded for dataId: {dataId.display}"

end LayerFault

namespace Fault

def kind : Fault → FaultClass
  | operation kind => kind
  | missingSettings _ => .missingFile
  | document _ => .document
  | layer _ => .layer
  | unsupportedLayerType _ => .layerType
  | unknownRule _ _ | unnamedAccessorKey _ => .type
  | noAccessorKey _ => .key
  | _ => .value

/-- The text of a failure that has one. -/
def message? : Fault → Option String
  | operation _ => none
  | expectedText field => some s!"Expected non-empty string for '{field}'"
  | expectedMapping field => some s!"Expected mapping for '{field}'"
  | expectedInteger field => some s!"Expected integer for '{field}'"
  | expectedBool field => some s!"Expected bool for '{field}'"
  | negativeIndent => some "output.indent must be >= 0"
  | settingsNotMapping => some "Top-level config must be a YAML mapping"
  | missingSettings path => some s!"Config file not found: {path}"
  | expectedSchemaList => some "Expected list for dataset 'schema'"
  | expectedDatasetList => some "Expected list for 'datasets'"
  | expectedDataset position => some s!"Expected mapping at datasets[{position}]"
  | document cause => some cause.message
  | layer cause => some cause.message
  | unsupportedLayerType found => some s!"Unsupported layer type: {found.literal}"
  | unknownRule key rule => some s!"Unknown prop rule for '{key}': {rule}"
  | unsupportedColor found => some s!"Unsupported color value: {found.literal}"
  | colorTooLong => some "color specifier is too long"
  | unknownColor specifier => some s!"unknown color specifier: {Text.quoted specifier}"
  | unsupportedScale found => some s!"Unsupported scale type: {found.literal}"
  | unsupportedAggregation found => some s!"Unsupported color aggregation: {found.literal}"
  | noAccessorKey keys =>
    some (Text.quoted ("Could not find property for any accessor key: " ++ ", ".intercalate keys))
  | unnamedAccessorKey typeName =>
    some s!"sequence item 0: expected str instance, {typeName} found"
  | unsupportedChoice field literal => some s!"Unsupported value for '{field}': {literal}"
  | missingZoom => some "Zoom level 'z' is required for the 'points' data type"
  | missingExpression => some "'operationExp' is required for the 'custom' operation"
  | expectedResponse what => some s!"Expected mapping for {what} response"
  | expectedCategoryList => some "Expected list for categories response"
  | viewportLength found =>
    some s!"Expected [west, south, east, north] viewport, got {(Json.list found).literal}"

/-- How reports show a failure. -/
def text (fault : Fault) : String :=
  fault.message?.getD ("<" ++ fault.kind.label ++ ">")

def typeMismatch : Fault := operation .type
def noMember : Fault := operation .member
def missingKey : Fault := operation .key
def badIndex : Fault := operation .index
def badValue : Fault := operation .value
def tooLarge : Fault := operation .overflow
def divisionByZero : Fault := operation .division
def nestedTooDeep : Fault := operation .recursion

end Fault

/-- The value of a computation on documents, or what made it fail. -/
abbrev Result (α : Type) := Except Fault α

end MapLayers
