import Mathlib.Algebra.Order.Field.Basic
import Mathlib.Tactic.Linarith
import Mathlib.Tactic.NormNum
import MapLayers.Accessor.Cluster
import MapLayers.Proofs.Results

/-!
# Sizes that grow with the cluster

A cluster is drawn by the place of its value between the ends of a column. Without rounding the place
never decreases and stays between zero and one, so the radius never decreases and stays in its range, and
the size of the text never decreases with the radius. A column of a single value has the largest radius.
-/

namespace MapLayers.Cluster

section Share

variable {low high value first second : Rat}

/-- A part of one, brought between zero and one. -/
def clamped (part : Rat) : Rat := Arithmetic.loweredTo 1 (Arithmetic.raisedTo 0 part)

theorem raisedTo_eq (bound value : Rat) :
    Arithmetic.raisedTo bound value = if bound < value then value else bound := by
  simp [Arithmetic.raisedTo, Arithmetic.less]

theorem loweredTo_eq (bound value : Rat) :
    Arithmetic.loweredTo bound value = if value < bound then value else bound := by
  simp [Arithmetic.loweredTo, Arithmetic.less]

theorem clamped_nonneg (part : Rat) : 0 ≤ clamped part := by
  unfold clamped
  rw [loweredTo_eq, raisedTo_eq]
  split_ifs <;> linarith

theorem clamped_le_one (part : Rat) : clamped part ≤ 1 := by
  unfold clamped
  rw [loweredTo_eq]
  split_ifs <;> linarith

theorem clamped_mono {p q : Rat} (h : p ≤ q) : clamped p ≤ clamped q := by
  unfold clamped
  simp only [loweredTo_eq, raisedTo_eq]
  split_ifs <;> linarith

theorem share_eq (h : low ≠ high) (value : Rat) :
    share low high value = .ok (clamped ((value - low) / (high - low))) := by
  have hextent : ¬high - low = 0 := fun hzero => h (sub_eq_zero.mp hzero).symm
  simp only [share, Arithmetic.sub, Arithmetic.div, Result.ok_bind, if_neg hextent]
  rfl

theorem share_mono (h : low < high) (hvalues : first ≤ second) :
    clamped ((first - low) / (high - low)) ≤ clamped ((second - low) / (high - low)) := by
  refine clamped_mono ?_
  have hextent : 0 < high - low := sub_pos.mpr h
  exact (div_le_div_iff_of_pos_right hextent).mpr (sub_le_sub_right hvalues low)

end Share

section Radius

variable {low high smallest largest value first second : Rat}

/-- The number in some proportion between the two ends of a range. -/
def onTheWay (smallest largest t : Rat) : Rat := smallest + (largest - smallest) * t

theorem between_eq (smallest largest t : Rat) :
    Interpolation.between smallest largest t = .ok (onTheWay smallest largest t) := rfl

theorem onTheWay_mem {t : Rat} (h : smallest ≤ largest) (hlow : 0 ≤ t) (hhigh : t ≤ 1) :
    smallest ≤ onTheWay smallest largest t ∧ onTheWay smallest largest t ≤ largest := by
  have hspan : 0 ≤ largest - smallest := sub_nonneg.mpr h
  have hleast : 0 ≤ (largest - smallest) * t := mul_nonneg hspan hlow
  have hmost : (largest - smallest) * t ≤ largest - smallest := mul_le_of_le_one_right hspan hhigh
  unfold onTheWay
  constructor <;> linarith

theorem onTheWay_mono {s t : Rat} (h : smallest ≤ largest) (hst : s ≤ t) :
    onTheWay smallest largest s ≤ onTheWay smallest largest t := by
  have := mul_le_mul_of_nonneg_left hst (sub_nonneg.mpr h)
  unfold onTheWay
  linarith

theorem radius_single (value : Rat) : radius low low smallest largest value = .ok largest := by
  simp [radius, Arithmetic.same]

theorem radius_extended (h : low ≠ high) (value : Rat) : radius low high smallest largest value =
    .ok (onTheWay smallest largest (clamped ((value - low) / (high - low)))) := by
  have hsame : ¬Arithmetic.same low high = true := by simpa [Arithmetic.same] using h
  rw [radius, if_neg hsame, share_eq h, Result.ok_bind, between_eq]

/-- Every value has a radius in the range, and none has a larger one than a greater value. -/
theorem exists_radius (hextent : low ≤ high) (hradii : smallest ≤ largest) (hvalues : first ≤ second) :
    ∃ r s, radius low high smallest largest first = .ok r ∧
      radius low high smallest largest second = .ok s ∧ smallest ≤ r ∧ r ≤ s ∧ s ≤ largest := by
  rcases hextent.eq_or_lt with rfl | hless
  · exact ⟨largest, largest, radius_single first, radius_single second, hradii, le_rfl, le_rfl⟩
  · have hmem (value : Rat) := onTheWay_mem hradii (clamped_nonneg ((value - low) / (high - low)))
      (clamped_le_one _)
    exact ⟨_, _, radius_extended hless.ne first, radius_extended hless.ne second, (hmem first).1,
      onTheWay_mono hradii (share_mono hless hvalues), (hmem second).2⟩

end Radius

/-- The size that goes with the first step reached, the last one being for all that reach none. -/
def sizeAt (steps : List (Int × Int)) (last : Int) (radius : Rat) : Int :=
  ((steps.find? fun step => (step.1 : Rat) ≤ radius).map Prod.snd).getD last

theorem sizeAt_cons (step : Int × Int) (rest : List (Int × Int)) (last : Int) (radius : Rat) :
    sizeAt (step :: rest) last radius =
      if (step.1 : Rat) ≤ radius then step.2 else sizeAt rest last radius := by
  unfold sizeAt
  rw [List.find?_cons]
  split_ifs with h <;> simp [h]

/-- The sizes of the steps descend to the last one. -/
def Descends (last : Int) : List (Int × Int) → Prop
  | [] => True
  | step :: rest => last ≤ step.2 ∧ (∀ other ∈ rest, other.2 ≤ step.2) ∧ Descends last rest

theorem sizeAt_le {steps : List (Int × Int)} {last bound : Int} (hlast : last ≤ bound)
    (hsteps : ∀ step ∈ steps, step.2 ≤ bound) (radius : Rat) : sizeAt steps last radius ≤ bound := by
  induction steps with
  | nil => exact hlast
  | cons step rest ih =>
    rw [sizeAt_cons]
    split_ifs
    · exact hsteps step (by simp)
    · exact ih fun other hother => hsteps other (by simp [hother])

/-- A larger radius reaches the same step, or an earlier one. -/
theorem sizeAt_mono {steps : List (Int × Int)} {last : Int} (hsteps : Descends last steps) {r s : Rat}
    (h : r ≤ s) : sizeAt steps last r ≤ sizeAt steps last s := by
  induction steps with
  | nil => exact le_rfl
  | cons step rest ih =>
    obtain ⟨hlast, hrest, hdescends⟩ := hsteps
    rw [sizeAt_cons, sizeAt_cons]
    split_ifs with hr hs hs
    · exact le_rfl
    · exact absurd (hr.trans h) hs
    · exact sizeAt_le hlast hrest r
    · exact ih hdescends

theorem fontSize_eq (radius : Rat) : fontSize radius = sizeAt fontSteps smallestFont radius := by
  have hsteps : (fontSteps.find? fun step => Arithmetic.atMost (Arithmetic.ofInt step.1) radius) =
      fontSteps.find? fun step => decide ((step.1 : Rat) ≤ radius) := rfl
  rw [fontSize, sizeAt, hsteps]
  cases fontSteps.find? fun step => decide ((step.1 : Rat) ≤ radius) <;> rfl

theorem fontSize_mono {r s : Rat} (h : r ≤ s) : fontSize r ≤ fontSize s := by
  rw [fontSize_eq, fontSize_eq]
  refine sizeAt_mono ?_ h
  simp [Descends, fontSteps, smallestFont]

/-- The numbers from which the size of a cluster is made. The value is not read in a column of a single
one. -/
structure Measures (properties statistics radii column : Json)
    (low high smallest largest value : Number) : Prop where
  extent : ∃ extent, statistics.select column = .ok extent ∧
    extent.field "min" = .ok (.ofNumber low) ∧ extent.field "max" = .ok (.ofNumber high)
  smallest : radii.item 0 = .ok (.ofNumber smallest)
  largest : radii.item 1 = .ok (.ofNumber largest)
  value : low.same high = false → properties.select column = .ok (.ofNumber value)

theorem operand_ofNumber (n : Number) : (Json.ofNumber n).operand = .ok n := by
  cases n <;> rfl

theorem same_ofNumber (m n : Number) : (Json.ofNumber m).same (.ofNumber n) = m.same n := by
  cases m <;> cases n <;> rfl

/-- The radius of a cluster is the one for its numbers. -/
theorem radiusOf_eq {properties statistics radii column : Json}
    {low high smallest largest value : Number}
    (h : Measures properties statistics radii column low high smallest largest value) :
    radiusOf properties statistics radii column =
      (radius low high smallest largest value).map .ofNumber := by
  obtain ⟨extent, hextent, hlow, hhigh⟩ := h.extent
  simp only [radiusOf, hextent, hlow, hhigh, Result.ok_bind, same_ofNumber, radius]
  have hsame : Arithmetic.same low high = low.same high := rfl
  rw [hsame]
  split_ifs with hequal
  · exact h.largest
  · simp only [h.value (Bool.eq_false_iff.mpr hequal), h.smallest, h.largest, operand_ofNumber, Result.ok_bind]
    cases hshare : share low high value with
    | error fault => rfl
    | ok t =>
      simp only [Result.ok_bind]
      cases Interpolation.between smallest largest t <;> rfl

theorem fontSizeOf_ofNumber (n : Number) : fontSizeOf (.ofNumber n) = .ok (.int (fontSize n)) := by
  simp only [fontSizeOf, operand_ofNumber, Result.ok_bind]
  rfl

/-- How the sizes of clusters depend on their values, as far as nothing is rounded. -/
structure Grows (low high smallest largest : Rat) : Prop where
  in_range : ∀ value, ∃ r, radius low high smallest largest value = .ok r ∧ smallest ≤ r ∧ r ≤ largest
  mono : ∀ first second r s, first ≤ second → radius low high smallest largest first = .ok r →
    radius low high smallest largest second = .ok s → r ≤ s ∧ fontSize r ≤ fontSize s
  single : low = high → ∀ value, radius low high smallest largest value = .ok largest

/-- A cluster of a document has the sizes that the rule gives for its numbers, and those grow with the
value between the ends of the column. -/
theorem sizes_grow :
    (∀ properties statistics radii column low high smallest largest value,
      Measures properties statistics radii column low high smallest largest value →
        radiusOf properties statistics radii column =
          (radius low high smallest largest value).map .ofNumber ∧
        (radiusOf properties statistics radii column).bind fontSizeOf =
          (radius low high smallest largest value).map fun r => .int (fontSize r)) ∧
    ∀ low high smallest largest : Rat, low ≤ high → smallest ≤ largest →
      Grows low high smallest largest := by
  constructor
  · intro properties statistics radii column low high smallest largest value hmeasures
    have hradius := radiusOf_eq hmeasures
    refine ⟨hradius, ?_⟩
    rw [hradius]
    cases radius low high smallest largest value with
    | error fault => rfl
    | ok r => exact fontSizeOf_ofNumber r
  · intro low high smallest largest hextent hradii
    refine ⟨fun value => ?_, fun first second r s hvalues hfirst hsecond => ?_, ?_⟩
    · obtain ⟨r, s, hr, hs, hleast, hrs, hmost⟩ := exists_radius hextent hradii (le_refl value)
      exact ⟨r, hr, hleast, hrs.trans hmost⟩
    · obtain ⟨r', s', hr, hs, -, hrs, -⟩ := exists_radius hextent hradii hvalues
      obtain rfl : r' = r := Except.ok.inj (hr.symm.trans hfirst)
      obtain rfl : s' = s := Except.ok.inj (hs.symm.trans hsecond)
      exact ⟨hrs, fontSize_mono hrs⟩
    · rintro rfl value
      exact radius_single value

/-- The counts of clusters, with one of sixty. -/
def countStatistics : Json :=
  .object [("count", .object [("min", .int 10), ("max", .int 110)])]

def countProperties : Json := .object [("count", .int 60)]

def countRadii : Json := .list [.int 0, .int 50]

theorem sizes_grow_counts :
    Measures countProperties countStatistics countRadii (.text "count") (.int 10) (.int 110) (.int 0)
      (.int 50) (.int 60) ∧
    radiusOf countProperties countStatistics countRadii (.text "count") =
      (radius (.int 10) (.int 110) (.int 0) (.int 50) (Number.int 60)).map .ofNumber ∧
    Grows 10 110 0 50 := by
  have hmeasures : Measures countProperties countStatistics countRadii (.text "count") (.int 10)
      (.int 110) (.int 0) (.int 50) (.int 60) := ⟨⟨_, rfl, rfl, rfl⟩, rfl, rfl, fun _ => rfl⟩
  exact ⟨hmeasures, (sizes_grow.1 _ _ _ _ _ _ _ _ _ hmeasures).1,
    sizes_grow.2 10 110 0 50 (by norm_num) (by norm_num)⟩

end MapLayers.Cluster
