import Mathlib.Algebra.Order.Field.Basic
import Mathlib.Tactic.FieldSimp
import Mathlib.Tactic.Linarith
import Mathlib.Tactic.LinearCombination
import Mathlib.Tactic.Ring
import MapLayers.Geometry.Intersection

/-!
# Segments as sets of positions

A segment contains the positions on the straight way between its ends. Two segments meet exactly if there
is a position that both contain, and a ray crosses a segment exactly if the ends of the segment lie on
different sides of the height of the ray and the segment passes that height on the right.
-/

namespace MapLayers

theorem isBetween_iff {a b v : Rat} : isBetween a b v = true ↔ (a ≤ v ∧ v ≤ b) ∨ (b ≤ v ∧ v ≤ a) := by
  simp [isBetween]

theorem isBetween_left (a b : Rat) : isBetween a b a = true := by
  rw [isBetween_iff]
  rcases le_total a b with h | h
  · exact .inl ⟨le_refl a, h⟩
  · exact .inr ⟨h, le_refl a⟩

theorem isBetween_right (a b : Rat) : isBetween a b b = true := by
  rw [isBetween_iff]
  rcases le_total a b with h | h
  · exact .inl ⟨h, le_refl b⟩
  · exact .inr ⟨le_refl b, h⟩

theorem isBetween_comm (a b v : Rat) : isBetween a b v = isBetween b a v := by
  rw [Bool.eq_iff_iff, isBetween_iff, isBetween_iff, or_comm]

@[simp] theorem isBetween_self {a v : Rat} : isBetween a a v = true ↔ v = a := by
  rw [isBetween_iff, or_self]
  exact ⟨fun h => le_antisymm h.2 h.1, fun h => ⟨h.ge, h.le⟩⟩

/-- A number that tells two others apart lies between them. -/
theorem isBetween_of_sides {a b v : Rat} (h : ¬(a ≤ v ↔ b ≤ v)) : isBetween a b v = true := by
  rw [isBetween_iff]
  by_cases ha : a ≤ v
  · left
    refine ⟨ha, ?_⟩
    by_contra hb
    exact h (iff_of_true ha (by linarith))
  · right
    refine ⟨?_, by linarith⟩
    by_contra hb
    exact h (iff_of_false ha hb)

theorem sides_of_isBetween {a b v : Rat} (h : isBetween a b v = true) (ha : v ≠ a) (hb : v ≠ b) :
    ¬(a ≤ v ↔ b ≤ v) := by
  intro hsides
  rcases isBetween_iff.mp h with ⟨hav, hvb⟩ | ⟨hbv, hva⟩
  · exact hb (le_antisymm hvb (hsides.mp hav))
  · exact ha (le_antisymm hva (hsides.mpr hbv))

/-- The numbers on the way from one number to another lie between them, and are all that do. -/
theorem isBetween_way (a b : Rat) {r : Rat} (hr : 0 ≤ r) (hr' : r ≤ 1) :
    isBetween a b (a + r * (b - a)) = true := by
  rw [isBetween_iff]
  rcases le_total a b with hab | hab
  · left
    constructor <;> nlinarith
  · right
    constructor <;> nlinarith

theorem exists_way_of_isBetween {a b v : Rat} (h : isBetween a b v = true) :
    ∃ r, 0 ≤ r ∧ r ≤ 1 ∧ a + r * (b - a) = v := by
  rw [isBetween_iff] at h
  by_cases hab : a = b
  · refine ⟨0, le_refl 0, zero_le_one, ?_⟩
    subst hab
    rcases h with h | h <;> linarith
  · have hne : b - a ≠ 0 := sub_ne_zero.mpr (Ne.symm hab)
    refine ⟨(v - a) / (b - a), ?_, ?_, by field_simp; ring⟩
    · rcases h with h | h
      · exact div_nonneg (by linarith) (by linarith)
      · exact div_nonneg_of_nonpos (by linarith) (by linarith)
    · rcases h with h | h
      · exact div_le_one_of_le₀ (by linarith) (by linarith)
      · exact div_le_one_of_ge (by linarith) (by linarith)

theorem isBetween_trans {a b c d v : Rat} (hc : isBetween a b c = true) (hd : isBetween a b d = true)
    (hv : isBetween c d v = true) : isBetween a b v = true := by
  rw [isBetween_iff] at *
  rcases hc with hc | hc <;> rcases hd with hd | hd <;> rcases hv with hv | hv <;>
    first
    | exact .inl ⟨by linarith, by linarith⟩
    | exact .inr ⟨by linarith, by linarith⟩

attribute [ext] Position

/-- The position after the part `r` of the way. -/
def Segment.point (s : Segment) (r : Rat) : Position :=
  ⟨s.start.x + r * (s.stop.x - s.start.x), s.start.y + r * (s.stop.y - s.start.y)⟩

theorem turn_point (a b : Position) (s : Segment) (r : Rat) :
    turn a b (s.point r) = turn a b s.start + r * (turn a b s.stop - turn a b s.start) := by
  unfold turn Segment.point
  ring

theorem turn_point_self (s : Segment) (r : Rat) : turn s.start s.stop (s.point r) = 0 := by
  unfold turn Segment.point
  ring

namespace Segment

variable {s t : Segment} {p : Position}

@[simp] theorem point_zero (s : Segment) : s.point 0 = s.start := by
  simp [point]

@[simp] theorem point_one (s : Segment) : s.point 1 = s.stop := by
  simp [point]

theorem height_ne_zero (hne : s.start ≠ s.stop) (hx : s.stop.x - s.start.x = 0) :
    s.stop.y - s.start.y ≠ 0 := by
  intro hy
  exact hne (Position.ext (by linarith) (by linarith))

/-- Positions in line with two different ones are reached by going some part of the way. -/
theorem exists_point_of_turn (hne : s.start ≠ s.stop) (h : turn s.start s.stop p = 0) :
    ∃ r, s.point r = p := by
  unfold turn at h
  by_cases hx : s.stop.x - s.start.x = 0
  · have hy := height_ne_zero hne hx
    refine ⟨(p.y - s.start.y) / (s.stop.y - s.start.y), Position.ext ?_ ?_⟩
    · have hin : p.x - s.start.x = 0 := by
        simpa [hx, hy] using h
      simp only [point, hx]
      linarith
    · simp only [point]
      field_simp
      ring
  · refine ⟨(p.x - s.start.x) / (s.stop.x - s.start.x), Position.ext ?_ ?_⟩
    · simp only [point]
      field_simp
      ring
    · simp only [point]
      field_simp
      linear_combination -h

theorem point_injective {r q : Rat} (hne : s.start ≠ s.stop) (h : s.point r = s.point q) : r = q := by
  simp only [point, Position.mk.injEq, add_right_inj] at h
  by_cases hx : s.stop.x - s.start.x = 0
  · have hy := height_ne_zero hne hx
    exact mul_right_cancel₀ hy h.2
  · exact mul_right_cancel₀ hx h.1

theorem contains_point (s : Segment) {r : Rat} (hr : 0 ≤ r) (hr' : r ≤ 1) : s.contains (s.point r) = true := by
  simp only [contains, Bool.and_eq_true, decide_eq_true_eq]
  refine ⟨⟨turn_point_self s r, ?_⟩, ?_⟩
  · exact isBetween_way _ _ hr hr'
  · exact isBetween_way _ _ hr hr'

theorem exists_point_of_contains (h : s.contains p = true) : ∃ r, 0 ≤ r ∧ r ≤ 1 ∧ s.point r = p := by
  simp only [contains, Bool.and_eq_true, decide_eq_true_eq] at h
  obtain ⟨⟨hturn, hx⟩, hy⟩ := h
  by_cases hne : s.start.x = s.stop.x
  · obtain ⟨r, hr, hr', hry⟩ := exists_way_of_isBetween hy
    refine ⟨r, hr, hr', Position.ext ?_ hry⟩
    have hin : p.x = s.start.x := by
      rw [isBetween_iff, ← hne] at hx
      rcases hx with hx | hx <;> linarith
    simp [point, hne, hin]
  · obtain ⟨r, hr, hr', hrx⟩ := exists_way_of_isBetween hx
    refine ⟨r, hr, hr', Position.ext hrx ?_⟩
    have hne' : s.stop.x - s.start.x ≠ 0 := sub_ne_zero.mpr (Ne.symm hne)
    apply mul_left_cancel₀ hne'
    unfold turn at hturn
    simp only [point]
    linear_combination (s.stop.y - s.start.y) * hrx - hturn

theorem contains_iff : s.contains p = true ↔ ∃ r, 0 ≤ r ∧ r ≤ 1 ∧ s.point r = p := by
  constructor
  · exact exists_point_of_contains
  · rintro ⟨r, hr, hr', rfl⟩
    exact s.contains_point hr hr'

theorem isBetween_of_contains (h : s.contains p = true) :
    isBetween s.start.x s.stop.x p.x = true ∧ isBetween s.start.y s.stop.y p.y = true := by
  simp only [contains, Bool.and_eq_true] at h
  exact ⟨h.1.2, h.2⟩

theorem exists_at_breadth {x : Rat} (h : isBetween s.start.x s.stop.x x = true) :
    ∃ q, s.contains q = true ∧ q.x = x := by
  obtain ⟨r, hr, hr', hx⟩ := exists_way_of_isBetween h
  exact ⟨s.point r, s.contains_point hr hr', hx⟩

theorem exists_at_height {y : Rat} (h : isBetween s.start.y s.stop.y y = true) :
    ∃ q, s.contains q = true ∧ q.y = y := by
  obtain ⟨r, hr, hr', hy⟩ := exists_way_of_isBetween h
  exact ⟨s.point r, s.contains_point hr hr', hy⟩

theorem contains_start (s : Segment) : s.contains s.start = true :=
  contains_iff.mpr ⟨0, le_refl 0, zero_le_one, s.point_zero⟩

theorem contains_stop (s : Segment) : s.contains s.stop = true :=
  contains_iff.mpr ⟨1, zero_le_one, le_refl 1, s.point_one⟩

theorem contains_trans {a c : Position} (ha : s.contains a = true) (hc : s.contains c = true)
    (hp : contains ⟨a, c⟩ p = true) : s.contains p = true := by
  obtain ⟨r, hr, hr', rfl⟩ := exists_point_of_contains ha
  obtain ⟨q, hq, hq', rfl⟩ := exists_point_of_contains hc
  obtain ⟨k, hk, hk', rfl⟩ := exists_point_of_contains hp
  have hbetween : isBetween 0 1 (r + k * (q - r)) = true := by
    apply isBetween_trans (isBetween_iff.mpr (.inl ⟨hr, hr'⟩)) (isBetween_iff.mpr (.inl ⟨hq, hq'⟩))
    exact isBetween_way r q hk hk'
  obtain ⟨hlow, hhigh⟩ : 0 ≤ r + k * (q - r) ∧ r + k * (q - r) ≤ 1 := by
    rcases isBetween_iff.mp hbetween with h | h
    · exact h
    · exact ⟨by linarith, by linarith⟩
  refine contains_iff.mpr ⟨_, hlow, hhigh, Position.ext ?_ ?_⟩
  · simp only [point]
    ring
  · simp only [point]
    ring

/-- The zero of an affine function lies between two places where it has different signs. -/
theorem zero_between {a b : Rat} (h : a * b < 0) :
    a - b ≠ 0 ∧ 0 ≤ a / (a - b) ∧ a / (a - b) ≤ 1 := by
  rcases mul_neg_iff.mp h with ⟨ha, hb⟩ | ⟨ha, hb⟩
  · have hpos : 0 < a - b := by linarith
    exact ⟨hpos.ne', div_nonneg ha.le hpos.le, div_le_one_of_le₀ (by linarith) hpos.le⟩
  · have hneg : a - b < 0 := by linarith
    exact ⟨hneg.ne, div_nonneg_of_nonpos ha.le hneg.le, div_le_one_of_ge (by linarith) hneg.le⟩

/-- Segments that separate each other's ends cross. -/
theorem crosses_of_separates (hs : s.separates t = true) (ht : t.separates s = true) :
    ∃ p, s.contains p = true ∧ t.contains p = true := by
  simp only [separates, decide_eq_true_eq] at hs ht
  obtain ⟨hne, hr, hr'⟩ := zero_between ht
  obtain ⟨hne', hq, hq'⟩ := zero_between hs
  refine ⟨_, s.contains_point hr hr', contains_iff.mpr ⟨_, hq, hq', ?_⟩⟩
  have hopposite : turn s.start s.stop t.start - turn s.start s.stop t.stop =
      -(turn t.start t.stop s.start - turn t.start t.stop s.stop) := by
    unfold turn
    ring
  rw [hopposite] at hne' ⊢
  apply Position.ext
  · simp only [point]
    field_simp
    unfold turn
    ring
  · simp only [point]
    field_simp
    unfold turn
    ring

/-- An affine function with a zero inside has values of different signs at the ends, or is zero. -/
theorem zero_of_same_sign {a b q : Rat} (hq : 0 < q) (hq' : q < 1) (h : a + q * (b - a) = 0)
    (hsame : 0 ≤ a * b) : a = 0 ∧ b = 0 := by
  have hsquare : (1 - q) * (a * a) = -(q * (a * b)) := by
    linear_combination a * h
  have ha : a = 0 := by
    have hle : (1 - q) * (a * a) ≤ 0 := by
      rw [hsquare]
      exact neg_nonpos.mpr (mul_nonneg hq.le hsame)
    have hzero : a * a ≤ 0 := nonpos_of_mul_nonpos_right hle (by linarith)
    exact mul_self_eq_zero.mp (le_antisymm hzero (mul_self_nonneg a))
  refine ⟨ha, ?_⟩
  rw [ha, zero_add, sub_zero] at h
  exact (mul_eq_zero.mp h).resolve_left hq.ne'

/-- Two segments in line with a common position: an end of one lies on the other. -/
theorem touches_of_line {r q : Rat} (hne : s.start ≠ s.stop) (hr : 0 ≤ r) (hr' : r ≤ 1) (hq : 0 ≤ q)
    (hq' : q ≤ 1) (hcommon : s.point r = t.point q) (hstart : turn s.start s.stop t.start = 0)
    (hstop : turn s.start s.stop t.stop = 0) :
    s.contains t.start = true ∨ s.contains t.stop = true ∨ t.contains s.start = true := by
  obtain ⟨a, ha⟩ := exists_point_of_turn hne hstart
  obtain ⟨b, hb⟩ := exists_point_of_turn hne hstop
  have hway (c : Rat) : t.point c = s.point (a + c * (b - a)) := by
    unfold point at ha hb ⊢
    rw [← ha, ← hb]
    apply Position.ext
    · ring
    · ring
  have hplace : r = a + q * (b - a) := point_injective hne (hcommon.trans (hway q))
  have hbetween : isBetween a b r = true := by
    rw [hplace]
    exact isBetween_way a b hq hq'
  by_cases hain : 0 ≤ a ∧ a ≤ 1
  · exact .inl (contains_iff.mpr ⟨a, hain.1, hain.2, ha⟩)
  by_cases hbin : 0 ≤ b ∧ b ≤ 1
  · exact .inr (.inl (contains_iff.mpr ⟨b, hbin.1, hbin.2, hb⟩))
  -- The ends of `t` lie beyond those of `s`, on different sides.
  have hzero : isBetween a b 0 = true := by
    rw [isBetween_iff] at hbetween ⊢
    rcases hbetween with ⟨har, hrb⟩ | ⟨hbr, hra⟩
    · left
      refine ⟨?_, by linarith⟩
      by_contra hpos
      exact hain ⟨by linarith, by linarith⟩
    · right
      refine ⟨?_, by linarith⟩
      by_contra hpos
      exact hbin ⟨by linarith, by linarith⟩
  obtain ⟨c, hc, hc', hczero⟩ := exists_way_of_isBetween hzero
  refine .inr (.inr (contains_iff.mpr ⟨c, hc, hc', ?_⟩))
  rw [hway, hczero, point_zero]

/-- Of segments with a common position, one has an end on the other unless each separates the ends of
the other. -/
theorem touches_of_not_separates (hs : s.contains p = true) (ht : t.contains p = true)
    (hsep : s.separates t = false) :
    s.contains t.start = true ∨ s.contains t.stop = true ∨ t.contains s.start = true := by
  obtain ⟨r, hr, hr', hrp⟩ := exists_point_of_contains hs
  obtain ⟨q, hq, hq', hqp⟩ := exists_point_of_contains ht
  have hline : turn s.start s.stop t.start +
      q * (turn s.start s.stop t.stop - turn s.start s.stop t.start) = 0 := by
    rw [← turn_point, hqp, ← hrp, turn_point_self]
  have hsame : 0 ≤ turn s.start s.stop t.start * turn s.start s.stop t.stop := by
    simpa [separates] using hsep
  rcases hq.eq_or_lt with rfl | hq
  · rw [point_zero] at hqp
    exact .inl (hqp ▸ hs)
  rcases hq'.eq_or_lt with rfl | hq'
  · rw [point_one] at hqp
    exact .inr (.inl (hqp ▸ hs))
  obtain ⟨hstart, hstop⟩ := zero_of_same_sign hq hq' hline hsame
  by_cases hne : s.start = s.stop
  · have hpoint : s.start = p := by
      rw [← hrp]
      simp [point, ← hne]
    exact .inr (.inr (hpoint ▸ ht))
  · exact touches_of_line hne hr hr' hq.le hq'.le (hrp.trans hqp.symm) hstart hstop

/-- Two segments meet exactly if they have a position in common. -/
theorem meets_iff : s.meets t = true ↔ ∃ p, s.contains p = true ∧ t.contains p = true := by
  simp only [meets, Bool.or_eq_true, Bool.and_eq_true]
  constructor
  · rintro ((((⟨hs, ht⟩ | h) | h) | h) | h)
    · exact crosses_of_separates hs ht
    · exact ⟨t.start, h, t.contains_start⟩
    · exact ⟨t.stop, h, t.contains_stop⟩
    · exact ⟨s.start, s.contains_start, h⟩
    · exact ⟨s.stop, s.contains_stop, h⟩
  · rintro ⟨p, hs, ht⟩
    cases hsep : s.separates t with
    | false =>
      rcases touches_of_not_separates hs ht hsep with h | h | h <;> simp [h]
    | true =>
      cases hsep' : t.separates s with
      | false =>
        rcases touches_of_not_separates ht hs hsep' with h | h | h <;> simp [h]
      | true => simp

/-- The ends of the segment lie on different sides of a height; the height itself belongs to the lower
side. -/
def Straddles (s : Segment) (y : Rat) : Prop := ¬(s.start.y ≤ y ↔ s.stop.y ≤ y)

theorem turn_of_contains {q : Position} (hq : s.contains q = true) (hy : q.y = p.y) :
    turn s.start s.stop p = (s.stop.y - s.start.y) * (q.x - p.x) := by
  obtain ⟨r, -, -, rfl⟩ := exists_point_of_contains hq
  have hself := turn_point_self s r
  unfold turn at hself ⊢
  rw [← hy]
  linear_combination hself

theorem crossesRay_of_not_straddles (h : ¬s.Straddles p.y) : s.crossesRay p = false := by
  unfold crossesRay
  unfold Straddles at h
  by_cases hstart : s.start.y ≤ p.y
  · have hstop : s.stop.y ≤ p.y := (not_not.mp h).mp hstart
    simp [not_lt.mpr hstart, not_lt.mpr hstop]
  · have hstop : ¬s.stop.y ≤ p.y := fun hle => hstart ((not_not.mp h).mpr hle)
    simp [hstart, hstop]

/-- A ray to the right crosses a segment that passes its height on the right. -/
theorem crossesRay_iff {q : Position} (hq : s.contains q = true) (hy : q.y = p.y) :
    s.crossesRay p = true ↔ s.Straddles p.y ∧ p.x < q.x := by
  by_cases h : s.Straddles p.y
  · have hturn := turn_of_contains hq hy
    simp only [h, true_and]
    unfold Straddles at h
    unfold crossesRay
    by_cases hstart : s.start.y ≤ p.y
    · have hstop : p.y < s.stop.y := by
        by_contra hle
        exact h (iff_of_true hstart (not_lt.mp hle))
      have hrise : 0 < s.stop.y - s.start.y := by linarith
      simp [hstart, hstop, hturn, mul_pos_iff_of_pos_left hrise]
    · have hstop : s.stop.y ≤ p.y := by
        by_contra hle
        exact h (iff_of_false hstart hle)
      have hfall : 0 < s.start.y - s.stop.y := by linarith
      have hflip : turn s.start s.stop p = -((s.start.y - s.stop.y) * (q.x - p.x)) := by
        rw [hturn]
        ring
      simp [hstart, hstop, not_le.mp hstart, hflip, mul_pos_iff_of_pos_left hfall]
  · simp [crossesRay_of_not_straddles h, h]

end Segment

end MapLayers
