import MapLayers.Proofs.AccessorDemands

/-!
# Palettes

A color range that maps no values to colors is a palette. A scale with a palette takes its domain from the
data and has the colors of the palette as its range.
-/

namespace MapLayers.Accessor

open Result (Succeeds)

/-- A color range lists some colors and maps no values to them. -/
structure Palette (colorRange : Json) (colors : List Json) : Prop where
  object : colorRange.isNull = true ∨ colorRange.isObject = true
  unmapped : isMapped colorRange = false
  listed : Json.fieldOf colorRange.fieldsOrNone "colors" = .list colors ∨
    Json.fieldOf colorRange.fieldsOrNone "colors" = .null ∧ colors = []
  valid : ∀ color ∈ colors, Succeeds (Color.ofJson color)

variable {colorRange : Json} {colors : List Json}

theorem Palette.orElse_eq (h : Palette colorRange colors) :
    colorRange.orElse (.object []) = .object colorRange.fieldsOrNone := by
  refine Json.orElse_object fun htruthy => ?_
  rcases h.object with hnull | hobject
  · cases colorRange <;> simp_all [Json.isNull, Json.truthy]
  · exact hobject

/-- A scale with a palette: of an ordinal one the domain ends where the colors do. -/
def paletteScale (kind : ScaleKind) (domain colors : List Json) : Scale :=
  (((Scale.new kind).withDomain (if kind = .ordinal then domain.take colors.length else domain)).withRange
    colors).withUnknown unknownColor

theorem colorScale_palette (h : Palette colorRange colors) {kind : Json} {scaleKind : ScaleKind}
    (hkind : ScaleKind.ofJson kind = .ok scaleKind) (hidentity : scaleKind ≠ .identity)
    {name data : Json} {domain : List Json}
    (hdomain : Domain.ofData data name (.ofKind scaleKind) = .ok domain) :
    colorScale name kind colorRange data = .ok (paletteScale scaleKind domain colors) := by
  have hunmapped := h.unmapped
  unfold isMapped at hunmapped
  simp only [colorScale, hkind, Result.ok_bind, hidentity, if_false, h.orElse_eq, Json.lookup]
  split
  · next first rest hmap => simp [hmap] at hunmapped
  · simp only [hdomain, Result.ok_bind]
    rcases h.listed with hlist | ⟨hnull, rfl⟩
    · rw [hlist]
      cases colors <;> rfl
    · rw [hnull]
      rfl

/-- A value outside the domain has the unknown color. -/
theorem ofJson_unknownColor : Color.ofJson unknownColor = .ok ⟨134, 141, 145, 255⟩ := by
  rfl

end MapLayers.Accessor
