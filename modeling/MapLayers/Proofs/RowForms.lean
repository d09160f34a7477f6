import MapLayers.Accessor.Basic
import MapLayers.Proofs.Results

/-!
# Rows and features

The same rows can be loaded as a table, where a row holds its columns itself, or as a collection of
features, where each feature holds them under `properties`. Accessors are made from either form in the
same way, and from then on answer a feature as they answer its row, whatever columns the row has.
-/

namespace MapLayers

namespace Row

/-- A row as a feature. -/
def asFeature (row : Json.Fields) : Json := .object [("properties", .object row)]

/-- Rows as a table. -/
def table (rows : List Json.Fields) : Json := .list (rows.map .object)

/-- Rows as a collection of features. -/
def collection (rows : List Json.Fields) : Json :=
  .object [("features", .list (rows.map asFeature))]

theorem columnValues_collection (rows : List Json.Fields) (name : Json) :
    columnValues (collection rows) name = columnValues (table rows) name := by
  have hrows : (rows.map Json.object).filter Json.isObject = rows.map Json.object := by
    simp [Json.isObject]
  show (rows.map asFeature).mapM (column name) =
    ((rows.map Json.object).filter Json.isObject).mapM fun row => row.lookupBy name
  rw [hrows, List.mapM_map, List.mapM_map]
  rfl

end Row

theorem Domain.ofData_collection (rows : List Json.Fields) (name : Json) (shape : Shape) :
    ofData (Row.collection rows) name shape = ofData (Row.table rows) name shape := by
  show (Row.columnValues (Row.collection rows) name >>= fun values => ofValues values shape) =
    (Row.columnValues (Row.table rows) name >>= fun values => ofValues values shape)
  rw [Row.columnValues_collection]

namespace Accessor

open Row (asFeature collection table)

/-- A color scale takes nothing from the data but the domain. -/
theorem colorScale_collection (rows : List Json.Fields) (name kind colorRange : Json) :
    colorScale name kind colorRange (collection rows) =
      colorScale name kind colorRange (table rows) := by
  simp only [colorScale, Domain.ofData_collection]

theorem sizeScale_collection (rows : List Json.Fields) (name : Json) (spec : SizeSpec) :
    sizeScale name spec (collection rows) = sizeScale name spec (table rows) := by
  simp only [sizeScale, Domain.ofData_collection]

/-- A call with a row; the caller may know more about it. -/
structure RowCall where
  row : Json.Fields
  more : List Json

namespace RowCall

def onRow (c : RowCall) : List Json := .object c.row :: c.more

def onFeature (c : RowCall) : List Json := asFeature c.row :: c.more

end RowCall

/-- The first accessor does with every row what the second one does with its feature. -/
def AnswersAlike (a b : Accessor) : Prop :=
  ∀ row info kept, a.callWith (.object row) info kept = b.callWith (asFeature row) info kept

namespace AnswersAlike

variable {a b : Accessor}

theorem call (h : AnswersAlike a b) (c : RowCall) (kept : Kept) :
    a.call c.onRow kept = b.call c.onFeature kept := by
  obtain ⟨row, more⟩ := c
  match more with
  | [] => exact h row none kept
  | [info] => exact h row (some info) kept
  | _ :: _ :: _ => rfl

/-- The same calls have the same outcomes, whatever has been kept before. -/
theorem outcomes (h : AnswersAlike a b) (kept : Kept) (calls : List RowCall) :
    a.outcomes kept (calls.map RowCall.onRow) = b.outcomes kept (calls.map RowCall.onFeature) := by
  induction calls generalizing kept with
  | nil => rfl
  | cons c rest ih =>
    simp only [List.map_cons, Accessor.outcomes, h.call c kept, ih]

variable {reader : Reader} {scale : Scale}

theorem color (alpha : Int) :
    AnswersAlike (.color reader scale alpha false) (.color reader scale alpha true) :=
  fun _ _ _ => rfl

theorem size : AnswersAlike (.size reader scale false) (.size reader scale true) :=
  fun _ _ _ => rfl

theorem label (name : Json) (format : TextFormat) :
    AnswersAlike (.label name format false) (.label name format true) :=
  fun _ _ _ => rfl

theorem icon (name : Json) (markers : Icon.Markers) (other : Json) :
    AnswersAlike (.icon name markers other false) (.icon name markers other true) :=
  fun _ _ _ => rfl

theorem constant (value : Json) : AnswersAlike (.constant value) (.constant value) :=
  fun _ _ _ => rfl

end AnswersAlike

/-- What the making of an accessor comes to with a table, and with a collection: the same fault, or
accessors whose calls have the same outcomes. -/
inductive Interchangeable : Result Accessor → Result Accessor → Prop
  | fault (f : Fault) : Interchangeable (.error f) (.error f)
  | accessors {a b : Accessor} :
    (∀ (kept : Kept) (calls : List RowCall), a.outcomes kept (calls.map RowCall.onRow) =
      b.outcomes kept (calls.map RowCall.onFeature)) → Interchangeable (.ok a) (.ok b)

namespace Interchangeable

theorem of_alike {a b : Accessor} (h : AnswersAlike a b) :
    Interchangeable (pure a) (pure b) := accessors h.outcomes

theorem bind {α : Type} {x : Result α} {f g : α → Result Accessor}
    (h : ∀ value, Interchangeable (f value) (g value)) :
    Interchangeable (x >>= f) (x >>= g) := by
  cases x with
  | error f => exact fault f
  | ok value => exact h value

end Interchangeable

variable (rows : List Json.Fields)

theorem forColor_interchangeable (channel : Channel) (spec : ColorSpec) :
    Interchangeable (forColor channel spec (table rows))
      (forColor channel spec (collection rows)) := by
  unfold forColor
  refine .bind fun name => .bind fun column => ?_
  rw [colorScale_collection]
  refine .bind fun scale => .bind fun alpha => .bind fun reader => ?_
  exact .of_alike (.color alpha)

theorem forSize_interchangeable (channel : Channel) (spec : SizeSpec) :
    Interchangeable (forSize channel spec (table rows))
      (forSize channel spec (collection rows)) := by
  unfold forSize
  refine .bind fun name => ?_
  rw [sizeScale_collection]
  exact .bind fun scale => .bind fun reader => .of_alike .size

theorem forLabel_interchangeable (field : Json) :
    Interchangeable (forLabel field (table rows)) (forLabel field (collection rows)) := by
  unfold forLabel
  exact .bind fun name => .bind fun type => .bind fun format => .of_alike (.label name format)

theorem forIcon_interchangeable (field range fallback : Json) (style : Icon.Style) :
    Interchangeable (forIcon field range fallback style (table rows))
      (forIcon field range fallback style (collection rows)) := by
  unfold forIcon
  refine .bind fun url => ?_
  dsimp only
  split
  · exact .of_alike (.constant _)
  · exact .bind fun entries => .bind fun markers => .bind fun name =>
      .of_alike (.icon name markers _)

/-- Every accessor that reads columns can be made from a table and from the collection of its rows
alike: both fail with one fault, or both succeed and answer a feature as its row. -/
theorem tables_and_collections_interchangeable :
    (∀ channel spec, Interchangeable (forColor channel spec (table rows))
      (forColor channel spec (collection rows))) ∧
    (∀ channel spec, Interchangeable (forSize channel spec (table rows))
      (forSize channel spec (collection rows))) ∧
    (∀ field, Interchangeable (forLabel field (table rows)) (forLabel field (collection rows))) ∧
    ∀ field range fallback style,
      Interchangeable (forIcon field range fallback style (table rows))
        (forIcon field range fallback style (collection rows)) :=
  ⟨forColor_interchangeable rows, forSize_interchangeable rows, forLabel_interchangeable rows,
    forIcon_interchangeable rows⟩

end Accessor

end MapLayers
