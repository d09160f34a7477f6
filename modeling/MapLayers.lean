import MapLayers.Main
import MapLayers.Geometry.Selection
import MapLayers.Viewport
import MapLayers.Widget.Request
import MapLayers.Widget.Response
import MapLayers.Proofs.Opacity
import MapLayers.Proofs.DatasetIsolation
import MapLayers.Calls
import MapLayers.Proofs.ChannelSteps
import MapLayers.Proofs.AccessorPlaces
import MapLayers.Proofs.AccessorState
import MapLayers.Proofs.FaultSources
import MapLayers.Proofs.ValidatedLayers
import MapLayers.Proofs.ValidationErrors
import MapLayers.Proofs.ValidationTotality
import MapLayers.Proofs.DeclaredShapes
import MapLayers.Proofs.ReadableDomains
import MapLayers.Proofs.RowForms
import MapLayers.Proofs.AccessorDemands
import MapLayers.Proofs.ChannelDemands
import MapLayers.Proofs.SessionRuns
import MapLayers.Proofs.CompileRuns
import MapLayers.Proofs.PointType
import MapLayers.Proofs.TreeWalks
import MapLayers.Proofs.PayloadConfinement
import MapLayers.Proofs.FileEffects
import MapLayers.Proofs.CompileResults
import MapLayers.Proofs.Segments
import MapLayers.Proofs.Boxes
import MapLayers.Proofs.ViewportSelection
import MapLayers.Proofs.AuthoredProps
import MapLayers.Proofs.FilledProps
import MapLayers.Proofs.MarkerProps
import MapLayers.Proofs.SubLayers
import MapLayers.Proofs.FloatArithmetic
import MapLayers.Proofs.IconSizes
import MapLayers.Proofs.TableTargets
import MapLayers.Proofs.MergedTables
import MapLayers.Proofs.ScaleRuns
import MapLayers.Proofs.ScaleFaults
import MapLayers.Proofs.SettledNames
import MapLayers.Proofs.FirstFeatures
import MapLayers.Proofs.WrittenValues
import MapLayers.Proofs.SharedProps
import MapLayers.Proofs.Bisection
import MapLayers.Proofs.Sorting
import MapLayers.Proofs.Categories
import MapLayers.Proofs.Palettes
import MapLayers.Proofs.CategoricalColors
import MapLayers.Proofs.TwoStops
import MapLayers.Proofs.NumericScales
import MapLayers.Proofs.IntegerLabels
import MapLayers.Proofs.ClusterSizes
import MapLayers.Proofs.LabelTexts
import MapLayers.Proofs.CompactLabels
import MapLayers.Proofs.FloatBounds
import MapLayers.Proofs.HueParts
import MapLayers.Proofs.ColorSpecifiers
import MapLayers.Proofs.ByteColors
import MapLayers.Proofs.ColorRanges
import MapLayers.Proofs.BucketOrder
import MapLayers.Proofs.LinearPieces
import MapLayers.Proofs.LogDomains
import MapLayers.Proofs.PointAltitudes
import MapLayers.Proofs.WidgetRequests
import MapLayers.Proofs.StrictLookups
