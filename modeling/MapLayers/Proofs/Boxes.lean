import MapLayers.Proofs.Segments

/-!
# Boxes

A box is a rectangle along the axes, with its edges in either order. As an area it covers the positions
between its edges, and it meets a shape exactly if the shape covers such a position. Where a closed ring
stays out of a box, rays from any two positions of the box cross it equally often, up to an even number.
-/

namespace MapLayers

namespace Segment

variable {p : Position} {a c x y : Rat}

theorem contains_horizontal :
    contains ⟨⟨a, y⟩, ⟨c, y⟩⟩ p = true ↔ isBetween a c p.x = true ∧ p.y = y := by
  simp only [contains, Bool.and_eq_true, decide_eq_true_eq, isBetween_self]
  constructor
  · rintro ⟨⟨-, hx⟩, hy⟩
    exact ⟨hx, hy⟩
  · rintro ⟨hx, rfl⟩
    refine ⟨⟨?_, hx⟩, rfl⟩
    unfold turn
    ring

theorem contains_vertical :
    contains ⟨⟨x, a⟩, ⟨x, c⟩⟩ p = true ↔ p.x = x ∧ isBetween a c p.y = true := by
  simp only [contains, Bool.and_eq_true, decide_eq_true_eq, isBetween_self]
  constructor
  · rintro ⟨⟨-, hx⟩, hy⟩
    exact ⟨hx, hy⟩
  · rintro ⟨rfl, hy⟩
    refine ⟨⟨?_, rfl⟩, hy⟩
    unfold turn
    ring

theorem crossesRay_horizontal : crossesRay ⟨⟨a, y⟩, ⟨c, y⟩⟩ p = false :=
  crossesRay_of_not_straddles (by simp [Straddles])

theorem crossesRay_vertical :
    crossesRay ⟨⟨x, a⟩, ⟨x, c⟩⟩ p = true ↔ Straddles ⟨⟨x, a⟩, ⟨x, c⟩⟩ p.y ∧ p.x < x := by
  by_cases h : Straddles ⟨⟨x, a⟩, ⟨x, c⟩⟩ p.y
  · obtain ⟨q, hq, hy⟩ := exists_at_height (isBetween_of_sides h)
    rw [crossesRay_iff hq hy, (contains_vertical.mp hq).1]
  · simp [crossesRay_of_not_straddles h, h]

end Segment

theorem Shape.covers_area_iff {rings : List (List Position)} {p : Position} :
    (Shape.area rings).covers p = true ↔
      (∃ s ∈ (Shape.area rings).segments, s.contains p = true) ∨
        (Shape.area rings).segments.countP (fun s => s.crossesRay p) % 2 = 1 := by
  unfold Shape.covers
  rw [Bool.or_eq_true, List.any_eq_true, decide_eq_true_eq]

theorem Shape.covers_of_segment {shape : Shape} {s : Segment} {p : Position} (hs : s ∈ shape.segments)
    (hp : s.contains p = true) : shape.covers p = true := by
  cases shape with
  | point q => simp [segments] at hs
  | path positions =>
    unfold covers
    rw [List.any_eq_true]
    exact ⟨s, hs, hp⟩
  | area rings => exact covers_area_iff.mpr (.inl ⟨s, hs, hp⟩)

theorem Shape.meets_iff {a b : Shape} : a.meets b = true ↔
    (∃ s ∈ a.segments, ∃ t ∈ b.segments, s.meets t = true) ∨
      (∃ p ∈ a.witnesses, b.covers p = true) ∨ ∃ p ∈ b.witnesses, a.covers p = true := by
  simp [meets, or_assoc]

structure Box where
  west : Rat
  south : Rat
  east : Rat
  north : Rat
  deriving DecidableEq, Repr

namespace Box

variable {b : Box} {s t : Segment} {p q : Position}

structure Contains (b : Box) (p : Position) : Prop where
  breadth : isBetween b.west b.east p.x = true
  height : isBetween b.south b.north p.y = true

def corner (b : Box) : Position := ⟨b.west, b.south⟩

/-- The corners, from the south-west one back to itself. -/
def ring (b : Box) : List Position :=
  [⟨b.west, b.south⟩, ⟨b.east, b.south⟩, ⟨b.east, b.north⟩, ⟨b.west, b.north⟩, ⟨b.west, b.south⟩]

def shape (b : Box) : Shape := .area [b.ring]

theorem segments_shape (b : Box) : b.shape.segments =
    [⟨⟨b.west, b.south⟩, ⟨b.east, b.south⟩⟩, ⟨⟨b.east, b.south⟩, ⟨b.east, b.north⟩⟩,
      ⟨⟨b.east, b.north⟩, ⟨b.west, b.north⟩⟩, ⟨⟨b.west, b.north⟩, ⟨b.west, b.south⟩⟩,
      ⟨⟨b.west, b.south⟩, ⟨b.west, b.south⟩⟩] := rfl

theorem contains_corner (b : Box) : b.Contains b.corner := ⟨isBetween_left _ _, isBetween_left _ _⟩

theorem contains_of_segment (hstart : b.Contains s.start) (hstop : b.Contains s.stop)
    (hp : s.contains p = true) : b.Contains p := by
  obtain ⟨hx, hy⟩ := Segment.isBetween_of_contains hp
  exact ⟨isBetween_trans hstart.breadth hstop.breadth hx,
    isBetween_trans hstart.height hstop.height hy⟩

theorem contains_of_corners {c : Box} (hlow : c.Contains ⟨b.west, b.south⟩)
    (hhigh : c.Contains ⟨b.east, b.north⟩) (hp : b.Contains p) : c.Contains p :=
  ⟨isBetween_trans hlow.breadth hhigh.breadth hp.breadth,
    isBetween_trans hlow.height hhigh.height hp.height⟩

theorem contains_of_edge (hs : s ∈ b.shape.segments) (hp : s.contains p = true) : b.Contains p := by
  have hends : b.Contains s.start ∧ b.Contains s.stop := by
    rw [segments_shape] at hs
    simp only [List.mem_cons, List.not_mem_nil, or_false] at hs
    rcases hs with rfl | rfl | rfl | rfl | rfl <;>
      exact ⟨⟨by simp [isBetween_left, isBetween_right], by simp [isBetween_left, isBetween_right]⟩,
        ⟨by simp [isBetween_left, isBetween_right], by simp [isBetween_left, isBetween_right]⟩⟩
  exact contains_of_segment hends.1 hends.2 hp

theorem exists_edge (hp : b.Contains p)
    (hline : (p.x = b.west ∨ p.x = b.east) ∨ (p.y = b.south ∨ p.y = b.north)) :
    ∃ s ∈ b.shape.segments, s.contains p = true := by
  rw [segments_shape]
  obtain ⟨hx, hy⟩ := hp
  rcases hline with (hwest | heast) | (hsouth | hnorth)
  · rw [isBetween_comm] at hy
    exact ⟨_, by simp, Segment.contains_vertical.mpr ⟨hwest, hy⟩⟩
  · exact ⟨_, by simp, Segment.contains_vertical.mpr ⟨heast, hy⟩⟩
  · exact ⟨_, by simp, Segment.contains_horizontal.mpr ⟨hx, hsouth⟩⟩
  · rw [isBetween_comm] at hx
    exact ⟨_, by simp, Segment.contains_horizontal.mpr ⟨hx, hnorth⟩⟩

/-- A ray crosses the edges of a box an odd number of times if it starts between them. -/
theorem odd_crossings_iff : b.shape.segments.countP (fun s => s.crossesRay p) % 2 = 1 ↔
    ¬(b.west ≤ p.x ↔ b.east ≤ p.x) ∧ ¬(b.south ≤ p.y ↔ b.north ≤ p.y) := by
  rw [segments_shape]
  simp only [List.countP_cons, List.countP_nil, Segment.crossesRay_horizontal,
    Segment.crossesRay_vertical, Segment.Straddles, Bool.false_eq_true, if_false, add_zero, zero_add]
  by_cases hsouth : b.south ≤ p.y <;> by_cases hnorth : b.north ≤ p.y <;>
    by_cases hwest : b.west ≤ p.x <;> by_cases heast : b.east ≤ p.x <;>
    simp [hsouth, hnorth, hwest, heast, not_lt.mpr, not_le.mp]

theorem covers_iff : b.shape.covers p = true ↔ b.Contains p := by
  refine Shape.covers_area_iff.trans ?_
  rw [show Shape.area [b.ring] = b.shape from rfl, odd_crossings_iff]
  constructor
  · rintro (⟨s, hs, hp⟩ | ⟨hx, hy⟩)
    · exact contains_of_edge hs hp
    · exact ⟨isBetween_of_sides hx, isBetween_of_sides hy⟩
  · rintro ⟨hx, hy⟩
    by_cases hline : (p.x = b.west ∨ p.x = b.east) ∨ (p.y = b.south ∨ p.y = b.north)
    · exact .inl (exists_edge ⟨hx, hy⟩ hline)
    · simp only [not_or] at hline
      obtain ⟨⟨hwest, heast⟩, hsouth, hnorth⟩ := hline
      exact .inr ⟨sides_of_isBetween hx hwest heast, sides_of_isBetween hy hsouth hnorth⟩

/-- On the way from outside to inside there is a bound. -/
theorem exists_bound_between {low high a c : Rat} (ha : isBetween low high a = false)
    (hc : isBetween low high c = true) :
    ∃ v, (v = low ∨ v = high) ∧ isBetween low high v = true ∧ isBetween a c v = true := by
  have hout : ¬((low ≤ a ∧ a ≤ high) ∨ (high ≤ a ∧ a ≤ low)) := by
    rw [← isBetween_iff, ha]
    decide
  have hbound : isBetween a c low = true ∨ isBetween a c high = true := by
    rw [isBetween_iff] at hc
    simp only [isBetween_iff]
    rcases le_or_gt low a with hlow | hlow <;> rcases le_or_gt high a with hhigh | hhigh
    · rcases hc with hc | hc
      · exact .inr (.inr ⟨hc.2, hhigh⟩)
      · exact .inl (.inr ⟨hc.2, hlow⟩)
    · exact absurd (.inl ⟨hlow, hhigh.le⟩) hout
    · exact absurd (.inr ⟨hhigh, hlow.le⟩) hout
    · rcases hc with hc | hc
      · exact .inl (.inl ⟨hlow.le, hc.1⟩)
      · exact .inr (.inl ⟨hhigh.le, hc.1⟩)
  rcases hbound with hlow | hhigh
  · exact ⟨low, .inl rfl, isBetween_left _ _, hlow⟩
  · exact ⟨high, .inr rfl, isBetween_right _ _, hhigh⟩

theorem exists_on_edge_of_breadth {a c : Position} (hx : isBetween b.west b.east a.x = true)
    (hy : isBetween b.south b.north a.y = false) (hc : b.Contains c) :
    ∃ p, Segment.contains ⟨a, c⟩ p = true ∧ ∃ s ∈ b.shape.segments, s.contains p = true := by
  obtain ⟨v, hv, hin, hbetween⟩ := exists_bound_between hy hc.height
  obtain ⟨p, hp, rfl⟩ := Segment.exists_at_height (s := ⟨a, c⟩) hbetween
  have hpx := isBetween_trans hx hc.breadth (Segment.isBetween_of_contains hp).1
  exact ⟨p, hp, exists_edge ⟨hpx, hin⟩ (.inr hv)⟩

theorem exists_on_edge {a c : Position} (ha : ¬b.Contains a) (hc : b.Contains c) :
    ∃ p, Segment.contains ⟨a, c⟩ p = true ∧ ∃ s ∈ b.shape.segments, s.contains p = true := by
  cases hx : isBetween b.west b.east a.x with
  | true =>
    cases hy : isBetween b.south b.north a.y with
    | true => exact absurd ⟨hx, hy⟩ ha
    | false => exact exists_on_edge_of_breadth hx hy hc
  | false =>
    obtain ⟨v, hv, hin, hbetween⟩ := exists_bound_between hx hc.breadth
    obtain ⟨p, hp, rfl⟩ := Segment.exists_at_breadth (s := ⟨a, c⟩) hbetween
    cases hy : isBetween b.south b.north p.y with
    | true => exact ⟨p, hp, exists_edge ⟨hin, hy⟩ (.inl hv)⟩
    | false =>
      obtain ⟨q, hq, hedge⟩ := exists_on_edge_of_breadth hin hy hc
      exact ⟨q, Segment.contains_trans hp (Segment.contains_stop ⟨a, c⟩) hq, hedge⟩

theorem meets_of_reaches (hs : s.contains p = true) (hp : b.Contains p) :
    b.Contains s.start ∨ ∃ e ∈ b.shape.segments, e.meets s = true := by
  by_cases hstart : b.Contains s.start
  · exact .inl hstart
  · obtain ⟨q, hq, e, he, heq⟩ := exists_on_edge hstart hp
    exact .inr ⟨e, he, Segment.meets_iff.mpr ⟨q, heq,
      Segment.contains_trans s.contains_start hs hq⟩⟩

/-- A path that reaches a box starts in it or meets an edge. -/
theorem path_meets {positions : List Position}
    (h : ∃ s ∈ segmentsOf positions, ∃ p, s.contains p = true ∧ b.Contains p) :
    (∃ p ∈ positions.take 1, b.Contains p) ∨
      ∃ e ∈ b.shape.segments, ∃ s ∈ segmentsOf positions, e.meets s = true := by
  induction positions using segmentsOf.induct with
  | case1 a c rest ih =>
    rw [segmentsOf] at h ⊢
    -- Where the rest of the path starts in the box, this segment reaches it as well.
    have hfirst (hreach : ∃ p, Segment.contains ⟨a, c⟩ p = true ∧ b.Contains p) :
        (∃ p ∈ (a :: c :: rest).take 1, b.Contains p) ∨
          ∃ e ∈ b.shape.segments, ∃ s ∈ ⟨a, c⟩ :: segmentsOf (c :: rest), e.meets s = true := by
      obtain ⟨p, hp, hin⟩ := hreach
      rcases meets_of_reaches hp hin with hstart | ⟨e, he, hmeets⟩
      · exact .inl ⟨a, by simp, hstart⟩
      · exact .inr ⟨e, he, _, List.mem_cons_self, hmeets⟩
    obtain ⟨s, hs, hreach⟩ := h
    rcases List.mem_cons.mp hs with rfl | hs
    · exact hfirst hreach
    · rcases ih ⟨s, hs, hreach⟩ with ⟨p, hp, hin⟩ | ⟨e, he, t, ht, hmeets⟩
      · obtain rfl : p = c := by simpa using hp
        exact hfirst ⟨p, Segment.contains_stop ⟨a, p⟩, hin⟩
      · exact .inr ⟨e, he, t, List.mem_cons_of_mem _ ht, hmeets⟩
  | case2 positions hshort =>
    rw [segmentsOf] at h
    · simp at h
    · exact hshort

/-- The segment stays out of the box. -/
def Avoids (b : Box) (s : Segment) : Prop := ∀ p, s.contains p = true → ¬b.Contains p

theorem lt_congr_of_outside {low high a c v : Rat} (hv : isBetween low high v = false)
    (ha : isBetween low high a = true) (hc : isBetween low high c = true) : a < v ↔ c < v := by
  have hone {a c : Rat} (ha : isBetween low high a = true) (hc : isBetween low high c = true)
      (hav : a < v) : c < v := by
    by_contra hvc
    have hbetween := isBetween_trans ha hc (isBetween_iff.mpr (.inl ⟨hav.le, not_lt.mp hvc⟩))
    simp [hv] at hbetween
  exact ⟨hone ha hc, hone hc ha⟩

/-- Where a segment stays out of a box, all of it that lies between the heights of the box is on the same
side. -/
theorem Avoids.side (h : b.Avoids s) : ∃ right : Prop, ∀ q, s.contains q = true →
    isBetween b.south b.north q.y = true → ∀ p, b.Contains p → (p.x < q.x ↔ right) := by
  refine ⟨∃ q, s.contains q = true ∧ isBetween b.south b.north q.y = true ∧ b.west < q.x, ?_⟩
  intro q hq hy p hp
  have hout : isBetween b.west b.east q.x = false := by
    cases hx : isBetween b.west b.east q.x with
    | true => exact absurd ⟨hx, hy⟩ (h q hq)
    | false => rfl
  rw [lt_congr_of_outside hout hp.breadth (isBetween_left _ _)]
  constructor
  · intro hright
    exact ⟨q, hq, hy, hright⟩
  · rintro ⟨other, hother, hheight, hright⟩
    by_contra hleft
    -- Between the two the segment would pass the western breadth, which is in the box.
    obtain ⟨m, hm, hmx⟩ := Segment.exists_at_breadth (s := ⟨q, other⟩)
      (isBetween_iff.mpr (.inl ⟨not_lt.mp hleft, hright.le⟩))
    refine h m (Segment.contains_trans hq hother hm) ⟨?_, ?_⟩
    · rw [hmx]
      exact isBetween_left _ _
    · exact isBetween_trans hy hheight (Segment.isBetween_of_contains hm).2

/-- Which of two heights a position lies between, on the right of the box. -/
def marks (b : Box) (low high : Rat) (v : Position) : Bool := low < v.y && v.y ≤ high && b.west < v.x

/-- Rays from two positions of a box differ in whether they cross a segment outside exactly if the
segment has one end to the right between their heights. -/
theorem Avoids.crossings (h : b.Avoids s) (hp : b.Contains p) (hq : b.Contains q) (hpq : p.y ≤ q.y) :
    (s.crossesRay p ^^ s.crossesRay q) =
      (b.marks p.y q.y s.start ^^ b.marks p.y q.y s.stop) := by
  obtain ⟨right, hright⟩ := h.side
  have hcross {p : Position} (hp : b.Contains p) :
      s.crossesRay p = true ↔ s.Straddles p.y ∧ right := by
    by_cases hstraddles : s.Straddles p.y
    · obtain ⟨m, hm, hmy⟩ := Segment.exists_at_height (isBetween_of_sides hstraddles)
      rw [Segment.crossesRay_iff hm hmy, hright m hm (hmy ▸ hp.height) p hp]
    · simp [Segment.crossesRay_of_not_straddles hstraddles, hstraddles]
  have hmark {v : Position} (hv : s.contains v = true) :
      b.marks p.y q.y v = true ↔ (¬v.y ≤ p.y ∧ v.y ≤ q.y) ∧ right := by
    unfold marks
    simp only [Bool.and_eq_true, decide_eq_true_eq, not_le]
    apply and_congr_right
    rintro ⟨hlow, hhigh⟩
    have hheight := isBetween_trans hp.height hq.height (isBetween_iff.mpr (.inl ⟨hlow.le, hhigh⟩))
    exact hright v hv hheight b.corner b.contains_corner
  have hstart : s.start.y ≤ p.y → s.start.y ≤ q.y := fun h => h.trans hpq
  have hstop : s.stop.y ≤ p.y → s.stop.y ≤ q.y := fun h => h.trans hpq
  have hxor : ∀ a b c d : Bool, ((a = true ↔ b = true) ↔ (c = true ↔ d = true)) →
      (a ^^ b) = (c ^^ d) := by decide
  apply hxor
  rw [hcross hp, hcross hq, hmark s.contains_start, hmark s.contains_stop]
  unfold Segment.Straddles
  grind

/-- Two tests that disagree on a segment exactly if its ends are marked differently: along a path they hold
an odd number of times together exactly if the ends of the path are marked differently. -/
theorem odd_counts_iff {f g : Segment → Bool} {mark : Position → Bool} (a : Position)
    (rest : List Position)
    (h : ∀ s ∈ segmentsOf (a :: rest), (f s ^^ g s) = (mark s.start ^^ mark s.stop)) :
    ((segmentsOf (a :: rest)).countP f + (segmentsOf (a :: rest)).countP g) % 2 = 1 ↔
      (mark a ^^ mark ((a :: rest).getLast (List.cons_ne_nil a rest))) = true := by
  induction rest generalizing a with
  | nil => simp [segmentsOf]
  | cons c rest ih =>
    have hfirst := h ⟨a, c⟩ (by simp [segmentsOf])
    have hrest := ih c fun s hs => h s (by simp [segmentsOf, hs])
    rw [segmentsOf, List.countP_cons, List.countP_cons, List.getLast_cons (List.cons_ne_nil c rest)]
    generalize mark ((c :: rest).getLast (List.cons_ne_nil c rest)) = last at hrest ⊢
    have hmark : (mark a ^^ last) = ((f ⟨a, c⟩ ^^ g ⟨a, c⟩) ^^ (mark c ^^ last)) := by
      rw [hfirst]
      cases mark a <;> cases mark c <;> cases last <;> rfl
    rw [hmark]
    cases f ⟨a, c⟩ <;> cases g ⟨a, c⟩ <;> cases hc : mark c ^^ last <;> simp [hc] at hrest ⊢ <;> omega

/-- Rays from two positions of a box cross a closed ring outside equally often, up to an even number. -/
theorem ring_crossings (hp : b.Contains p) (hq : b.Contains q) {ring : List Position}
    (h : ∀ s ∈ ringSegments ring, b.Avoids s) :
    (ringSegments ring).countP (fun s => s.crossesRay p) % 2 =
      (ringSegments ring).countP (fun s => s.crossesRay q) % 2 := by
  cases ring with
  | nil => rfl
  | cons a rest =>
    wlog hpq : p.y ≤ q.y generalizing p q
    · exact (this hq hp (le_of_not_ge hpq)).symm
    have hodd := odd_counts_iff a (rest ++ [a]) fun s hs => (h s hs).crossings hp hq hpq
    have hlast : (a :: (rest ++ [a])).getLast (List.cons_ne_nil a _) = a := by simp
    rw [hlast, Bool.xor_self] at hodd
    show (segmentsOf (a :: (rest ++ [a]))).countP _ % 2 = (segmentsOf (a :: (rest ++ [a]))).countP _ % 2
    simp only [Bool.false_eq_true, iff_false] at hodd
    omega

theorem rings_crossings (hp : b.Contains p) (hq : b.Contains q) {rings : List (List Position)}
    (h : ∀ s ∈ (Shape.area rings).segments, b.Avoids s) :
    (Shape.area rings).segments.countP (fun s => s.crossesRay p) % 2 =
      (Shape.area rings).segments.countP (fun s => s.crossesRay q) % 2 := by
  unfold Shape.segments at h ⊢
  dsimp only at h ⊢
  induction rings with
  | nil => rfl
  | cons ring rest ih =>
    rw [List.flatMap_cons] at h ⊢
    have hring := ring_crossings hp hq fun s hs => h s (List.mem_append_left _ hs)
    have hrest := ih fun s hs => h s (List.mem_append_right _ hs)
    rw [List.countP_append, List.countP_append]
    omega

theorem meets_of_segment {shape : Shape} (hs : s ∈ shape.segments) (hp : s.contains p = true)
    (hin : b.Contains p) : b.shape.meets shape = true := by
  rw [Shape.meets_iff]
  cases shape with
  | point q => simp [Shape.segments] at hs
  | path positions =>
    rcases path_meets ⟨s, hs, p, hp, hin⟩ with ⟨q, hq, hqin⟩ | hmeets
    · exact .inr (.inr ⟨q, hq, covers_iff.mpr hqin⟩)
    · exact .inl hmeets
  | area rings =>
    obtain ⟨ring, hring, hs⟩ := List.mem_flatMap.mp hs
    have hstart : (ring ++ ring.take 1).take 1 = ring.take 1 := by
      cases ring with
      | nil => rfl
      | cons a rest => rfl
    rcases path_meets ⟨s, hs, p, hp, hin⟩ with ⟨q, hq, hqin⟩ | ⟨e, he, t, ht, hmeets⟩
    · rw [hstart] at hq
      exact .inr (.inr ⟨q, List.mem_flatMap.mpr ⟨ring, hring, hq⟩, covers_iff.mpr hqin⟩)
    · exact .inl ⟨e, he, t, List.mem_flatMap.mpr ⟨ring, hring, ht⟩, hmeets⟩

/-- A box that lies in the inside of an area, away from its rings, has its corner there. -/
theorem meets_of_inside {rings : List (List Position)} (hin : b.Contains p)
    (hodd : (Shape.area rings).segments.countP (fun s => s.crossesRay p) % 2 = 1) :
    b.shape.meets (.area rings) = true := by
  by_cases havoid : ∀ s ∈ (Shape.area rings).segments, b.Avoids s
  · rw [rings_crossings hin b.contains_corner havoid] at hodd
    rw [Shape.meets_iff]
    exact .inr (.inl ⟨b.corner, List.mem_singleton_self _, Shape.covers_area_iff.mpr (.inr hodd)⟩)
  · simp only [Avoids, not_forall, not_not] at havoid
    obtain ⟨s, hs, q, hq, hqin⟩ := havoid
    exact meets_of_segment hs hq hqin

/-- A box meets a shape exactly if it contains a position that the shape covers or starts at. -/
theorem meets_iff {shape : Shape} : b.shape.meets shape = true ↔
    ∃ p, b.Contains p ∧ (shape.covers p = true ∨ p ∈ shape.witnesses) := by
  constructor
  · rw [Shape.meets_iff]
    rintro (⟨e, he, s, hs, hmeets⟩ | ⟨p, hp, hcovers⟩ | ⟨p, hp, hcovers⟩)
    · obtain ⟨p, hep, hsp⟩ := Segment.meets_iff.mp hmeets
      exact ⟨p, contains_of_edge he hep, .inl (Shape.covers_of_segment hs hsp)⟩
    · obtain rfl : p = b.corner := List.mem_singleton.mp hp
      exact ⟨b.corner, b.contains_corner, .inl hcovers⟩
    · exact ⟨p, covers_iff.mp hcovers, .inr hp⟩
  · rintro ⟨p, hin, hcovers | hwitness⟩
    · cases shape with
      | point q =>
        obtain rfl : p = q := by simpa [Shape.covers] using hcovers
        exact Shape.meets_iff.mpr (.inr (.inr ⟨p, List.mem_singleton_self p, covers_iff.mpr hin⟩))
      | path positions =>
        unfold Shape.covers at hcovers
        obtain ⟨s, hs, hp⟩ := List.any_eq_true.mp hcovers
        exact meets_of_segment hs hp hin
      | area rings =>
        rcases Shape.covers_area_iff.mp hcovers with ⟨s, hs, hp⟩ | hodd
        · exact meets_of_segment hs hp hin
        · exact meets_of_inside hin hodd
    · exact Shape.meets_iff.mpr (.inr (.inr ⟨p, hwitness, covers_iff.mpr hin⟩))

end Box

end MapLayers
