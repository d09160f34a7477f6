import Mathlib.Algebra.Order.Field.Basic
import Mathlib.Order.Monotone.Basic
import Mathlib.Tactic.Linarith
import Mathlib.Tactic.Ring
import MapLayers.Proofs.Bisection
import MapLayers.Proofs.NumericScales

/-!
# Linear pieces

A linear scale draws a line between neighbouring stops and takes the value of the line on which a number
lies. Without rounding the lines meet at the stops: the scale takes each entry of its range at the stop of
the same place and rises as its entries do. Numbers beyond the outermost stops lie on the outermost lines.
-/

namespace MapLayers

namespace Interpolation

/-- Two neighbouring stops, with the entries that belong to them. -/
structure Piece where
  start : Rat
  stop : Rat
  first : Rat
  last : Rat

namespace Piece

variable {piece : Piece} {x y : Rat}

/-- The line through the ends of the piece. -/
def line (piece : Piece) (x : Rat) : Rat :=
  piece.first + (piece.last - piece.first) * (x - piece.start) / (piece.stop - piece.start)

theorem line_start (piece : Piece) : piece.line piece.start = piece.first := by
  simp [line]

theorem line_stop (h : piece.start < piece.stop) : piece.line piece.stop = piece.last := by
  have hwidth : piece.stop - piece.start ≠ 0 := (sub_pos.mpr h).ne'
  rw [line, mul_div_assoc, div_self hwidth, mul_one, add_sub_cancel]

theorem line_mono (h : piece.start < piece.stop) (hup : piece.first ≤ piece.last) (hxy : x ≤ y) :
    piece.line x ≤ piece.line y := by
  have hwidth : 0 ≤ piece.stop - piece.start := (sub_pos.mpr h).le
  have hrise : (piece.last - piece.first) * (x - piece.start) ≤
      (piece.last - piece.first) * (y - piece.start) :=
    mul_le_mul_of_nonneg_left (sub_le_sub_right hxy _) (sub_nonneg.mpr hup)
  exact add_le_add_right (div_le_div_of_nonneg_right hrise hwidth) _

theorem blend_eq (h : piece.start < piece.stop) (x : Rat) :
    (proportion piece.start piece.stop x >>= between piece.first piece.last) = .ok (piece.line x) := by
  have hsame : ¬Arithmetic.same piece.stop piece.start = true := by simpa [Arithmetic.same] using h.ne'
  have hwidth : ¬piece.stop - piece.start = 0 := (sub_pos.mpr h).ne'
  have hproportion : proportion piece.start piece.stop x =
      .ok ((x - piece.start) / (piece.stop - piece.start)) := by
    rw [proportion, if_neg hsame]
    simp only [Arithmetic.sub, Arithmetic.div, Result.ok_bind, if_neg hwidth]
  rw [hproportion, Result.ok_bind, line, mul_div_assoc]
  rfl

end Piece

section Pieces

variable {stops range : List Rat} {pieces i j : Nat} {x y : Rat}

/-- The number at a place of the list. -/
def entryAt (items : List Rat) (i : Nat) : Rat := items[i]?.getD 0

theorem getElem?_eq_entryAt (items : List Rat) (h : i < items.length) :
    items[i]? = some (entryAt items i) := by
  rw [entryAt, List.getElem?_eq_getElem h, Option.getD_some]

theorem entryAt_pairwise {r : Rat → Rat → Prop} {items : List Rat} (hitems : items.Pairwise r) (hij : i < j)
    (hj : j < items.length) : r (entryAt items i) (entryAt items j) := by
  simp only [entryAt, List.getElem?_eq_getElem (hij.trans hj), List.getElem?_eq_getElem hj, Option.getD_some]
  exact List.pairwise_iff_getElem.mp hitems i j (hij.trans hj) hj hij

theorem entryAt_le {items : List Rat} (hitems : items.Pairwise (· ≤ ·)) (hij : i ≤ j)
    (hj : j < items.length) : entryAt items i ≤ entryAt items j := by
  rcases hij.eq_or_lt with rfl | hlt
  · exact le_rfl
  · exact entryAt_pairwise hitems hlt hj

theorem entryAt_take (items : List Rat) (h : i < j) : entryAt (items.take j) i = entryAt items i := by
  rw [entryAt, List.getElem?_take_of_lt h, entryAt]

/-- The number is not below the stop with which the piece begins, nor does it reach the stop with which it
ends. The outermost pieces have no outer end. -/
structure OnPiece (stops : List Rat) (pieces : Nat) (x : Rat) (i : Nat) : Prop where
  lt : i < pieces
  start : i = 0 ∨ entryAt stops i ≤ x
  stop : i = pieces - 1 ∨ x < entryAt stops (i + 1)

/-- The bisection finds a piece of the number, whatever the order of the stops. -/
theorem pieceOf_onPiece (hpos : 0 < pieces) (hpieces : pieces ≤ stops.length) (x : Rat) :
    ∃ i, pieceOf stops pieces x = .ok i ∧ OnPiece stops pieces x i := by
  unfold pieceOf
  split
  · next hmany =>
    obtain ⟨place, hplace, hborder⟩ : ∃ place,
        upperBoundBetween (fun stop => .ok (Arithmetic.less x stop)) stops 1 pieces = .ok place ∧
          Border (Arithmetic.less x) stops 1 pieces place := bisect_border le_rfl hmany.le hpieces
    have hlow := hborder.low_le
    have hhigh := hborder.le_high
    refine ⟨place - 1, ?_, by omega, ?_, ?_⟩
    · rw [hplace, Result.ok_bind, Nat.min_eq_left (by omega)]
      rfl
    · rcases hborder.before with rfl | ⟨stop, hstop, hbelow⟩
      · exact .inl rfl
      · refine .inr ?_
        rw [entryAt, hstop]
        simpa [Arithmetic.less] using hbelow
    · rcases hborder.behind with rfl | ⟨stop, hstop, habove⟩
      · exact .inl rfl
      · refine .inr ?_
        rw [entryAt, Nat.sub_add_cancel hlow, hstop]
        simpa [Arithmetic.less] using habove
  · exact ⟨0, rfl, hpos, .inl rfl, .inl (by omega)⟩

theorem OnPiece.mono (hstops : stops.Pairwise (· < ·)) (hpieces : pieces < stops.length)
    (hi : OnPiece stops pieces x i) (hj : OnPiece stops pieces y j) (hxy : x ≤ y) : i ≤ j := by
  by_contra hji
  have hilt := hi.lt
  have hle : entryAt stops (j + 1) ≤ entryAt stops i :=
    entryAt_le (hstops.imp le_of_lt) (by omega) (by omega)
  have hx : entryAt stops i ≤ x := hi.start.resolve_left (by omega)
  have hy : y < entryAt stops (j + 1) := hj.stop.resolve_left (by omega)
  linarith

theorem existsUnique_onPiece (hstops : stops.Pairwise (· < ·)) (hpos : 0 < pieces)
    (hpieces : pieces < stops.length) (x : Rat) : ∃! i, OnPiece stops pieces x i := by
  obtain ⟨i, -, hi⟩ := pieceOf_onPiece hpos hpieces.le x
  exact ⟨i, hi, fun j hj => le_antisymm (hj.mono hstops hpieces hi le_rfl) (hi.mono hstops hpieces hj le_rfl)⟩

/-- The piece between the stops at a place and the next one. -/
def pieceAt (stops range : List Rat) (i : Nat) : Piece :=
  ⟨entryAt stops i, entryAt stops (i + 1), entryAt range i, entryAt range (i + 1)⟩

theorem pieceAt_ascends (range : List Rat) (hstops : stops.Pairwise (· < ·)) (hi : i + 1 < stops.length) :
    (pieceAt stops range i).start < (pieceAt stops range i).stop :=
  entryAt_pairwise hstops (Nat.lt_succ_self i) hi

/-- On every piece the values are those of its line. -/
def Follows (stops range : List Rat) (pieces : Nat) (value : Rat → Rat) : Prop :=
  ∀ x i, OnPiece stops pieces x i → value x = (pieceAt stops range i).line x

theorem interpolate?_onPiece (hstops : stops.Pairwise (· < ·)) (hlength : 2 ≤ stops.length)
    (hrange : 2 ≤ range.length) (x : Rat) :
    ∃ i, OnPiece stops (min stops.length range.length - 1) x i ∧
      interpolate? between stops range x = .ok (some ((pieceAt stops range i).line x)) := by
  obtain ⟨i, hfound, hi⟩ : ∃ i, pieceOf stops (min stops.length range.length - 1) x = .ok i ∧
      OnPiece stops (min stops.length range.length - 1) x i := pieceOf_onPiece (by omega) (by omega) x
  have hlt := hi.lt
  refine ⟨i, hi, ?_⟩
  obtain ⟨t, ht, hbetween⟩ := Result.bind_eq_ok_iff.mp
    (Piece.blend_eq (pieceAt_ascends range hstops (i := i) (by omega)) x)
  have hstart := getElem?_eq_entryAt stops (i := i) (by omega)
  have hstop := getElem?_eq_entryAt stops (i := i + 1) (by omega)
  have hfirst := getElem?_eq_entryAt range (i := i) (by omega)
  have hlast := getElem?_eq_entryAt range (i := i + 1) (by omega)
  simp only [pieceAt] at ht hbetween ⊢
  simp only [interpolate?, hfound, hstart, hstop, hfirst, hlast, ht, hbetween, Result.ok_bind]
  rfl

variable {value other : Rat → Rat}

theorem Follows.at_stop (h : Follows stops range pieces value) (hstops : stops.Pairwise (· < ·))
    (hpos : 0 < pieces) (hpieces : pieces < stops.length) (hi : i ≤ pieces) :
    value (entryAt stops i) = entryAt range i := by
  rcases hi.eq_or_lt with rfl | hlt
  · -- The last stop ends the last piece, every other one begins its own.
    have hlast : OnPiece stops i (entryAt stops i) (i - 1) :=
      ⟨by omega, .inr (entryAt_le (hstops.imp le_of_lt) (by omega) hpieces), .inl rfl⟩
    have hstop := Piece.line_stop (pieceAt_ascends range hstops (i := i - 1) (by omega))
    simp only [pieceAt, Nat.sub_add_cancel hpos] at hstop
    rw [h _ _ hlast, pieceAt, Nat.sub_add_cancel hpos, hstop]
  · have hown : OnPiece stops pieces (entryAt stops i) i :=
      ⟨hlt, .inr le_rfl, .inr (entryAt_pairwise hstops (Nat.lt_succ_self i) (by omega))⟩
    rw [h _ _ hown]
    exact Piece.line_start (pieceAt stops range i)

theorem Follows.mono (h : Follows stops range pieces value) (hstops : stops.Pairwise (· < ·))
    (hpos : 0 < pieces) (hpieces : pieces < stops.length)
    (hrange : ∀ i j, i ≤ j → j ≤ pieces → entryAt range i ≤ entryAt range j) : Monotone value := by
  intro x y hxy
  obtain ⟨i, hi, -⟩ := existsUnique_onPiece hstops hpos hpieces x
  obtain ⟨j, hj, -⟩ := existsUnique_onPiece hstops hpos hpieces y
  have hline (k : Nat) (hk : k < pieces) {u v : Rat} (huv : u ≤ v) :
      (pieceAt stops range k).line u ≤ (pieceAt stops range k).line v :=
    Piece.line_mono (pieceAt_ascends range hstops (by omega)) (hrange k (k + 1) (by omega) hk) huv
  rw [h x i hi, h y j hj]
  rcases (hi.mono hstops hpieces hj hxy).eq_or_lt with rfl | hlt
  · exact hline i hi.lt hxy
  · -- Between the two numbers lie the end of the first piece and the beginning of the second.
    have hilt := hi.lt
    have hjlt := hj.lt
    have hx : x ≤ entryAt stops (i + 1) := (hi.stop.resolve_left (by omega)).le
    have hy : entryAt stops j ≤ y := hj.start.resolve_left (by omega)
    calc (pieceAt stops range i).line x
        ≤ (pieceAt stops range i).line (entryAt stops (i + 1)) := hline i hilt hx
      _ = entryAt range (i + 1) := Piece.line_stop (pieceAt_ascends range hstops (by omega))
      _ ≤ entryAt range j := hrange (i + 1) j hlt hjlt.le
      _ = (pieceAt stops range j).line (entryAt stops j) := (Piece.line_start (pieceAt stops range j)).symm
      _ ≤ (pieceAt stops range j).line y := hline j hjlt hy

theorem entryAt_neg (items : List Rat) (i : Nat) : entryAt (items.map fun r => -r) i = -entryAt items i := by
  rw [entryAt, List.getElem?_map, entryAt]
  cases items[i]? <;> simp

theorem Follows.neg (h : Follows stops range pieces value) :
    Follows stops (range.map fun r => -r) pieces fun x => -value x := by
  intro x i hi
  simp only [h x i hi, pieceAt, Piece.line, entryAt_neg]
  ring

theorem Follows.anti (h : Follows stops range pieces value) (hstops : stops.Pairwise (· < ·))
    (hpos : 0 < pieces) (hpieces : pieces < stops.length)
    (hrange : ∀ i j, i ≤ j → j ≤ pieces → entryAt range j ≤ entryAt range i) : Antitone value := by
  have hrises : Monotone fun x => -value x := h.neg.mono hstops hpos hpieces fun i j hij hj => by
    rw [entryAt_neg, entryAt_neg]
    exact neg_le_neg (hrange i j hij hj)
  exact fun x y hxy => neg_le_neg_iff.mp (hrises hxy)

theorem Follows.of_take (h : Follows (stops.take (pieces + 1)) (range.take (pieces + 1)) pieces value) :
    Follows stops range pieces value := by
  intro x i hi
  have hlt := hi.lt
  have hstart : entryAt (stops.take (pieces + 1)) i = entryAt stops i := entryAt_take stops (by omega)
  have hstop : entryAt (stops.take (pieces + 1)) (i + 1) = entryAt stops (i + 1) :=
    entryAt_take stops (by omega)
  have hfirst : entryAt (range.take (pieces + 1)) i = entryAt range i := entryAt_take range (by omega)
  have hlast : entryAt (range.take (pieces + 1)) (i + 1) = entryAt range (i + 1) :=
    entryAt_take range (by omega)
  rw [h x i ⟨hlt, hstart.symm ▸ hi.start, hstop.symm ▸ hi.stop⟩]
  simp only [pieceAt, hstart, hstop, hfirst, hlast]

theorem Follows.unique (h : Follows stops range pieces value) (hother : Follows stops range pieces other)
    (hpos : 0 < pieces) (hpieces : pieces ≤ stops.length) (x : Rat) : value x = other x := by
  obtain ⟨i, -, hi⟩ := pieceOf_onPiece hpos hpieces x
  rw [h x i hi, hother x i hi]

/-- How the values between some stops depend on the number, as far as nothing is rounded. Only the first
`pieces + 1` stops and entries matter. -/
structure Interpolant (stops range : List Rat) (pieces : Nat) (value : Rat → Rat) : Prop where
  run : ∀ x, interpolate? between stops range x = .ok (some (value x))
  one_piece : ∀ x, ∃! i, OnPiece stops pieces x i
  follows : Follows stops range pieces value
  at_stop : ∀ i, i ≤ pieces → value (entryAt stops i) = entryAt range i
  surplus : ∀ x, interpolate? between (stops.take (pieces + 1)) (range.take (pieces + 1)) x =
    .ok (some (value x))
  before : ∀ x, x ≤ entryAt stops 0 → value x = (pieceAt stops range 0).line x
  behind : ∀ x, entryAt stops pieces ≤ x → value x = (pieceAt stops range (pieces - 1)).line x
  rises : (range.take (pieces + 1)).Pairwise (· ≤ ·) → Monotone value
  falls : (range.take (pieces + 1)).Pairwise (fun r s => s ≤ r) → Antitone value

theorem exists_follows (hstops : stops.Pairwise (· < ·)) (hlength : 2 ≤ stops.length)
    (hrange : 2 ≤ range.length) : ∃ value, Follows stops range (min stops.length range.length - 1) value ∧
      ∀ x, interpolate? between stops range x = .ok (some (value x)) := by
  choose i hi hrun using interpolate?_onPiece hstops hlength hrange
  refine ⟨fun x => (pieceAt stops range (i x)).line x, fun x j hj => ?_, hrun⟩
  have hsame : i x = j := (existsUnique_onPiece hstops (by omega) (by omega) x).unique (hi x) hj
  simp only [hsame]

theorem exists_interpolant (hstops : stops.Pairwise (· < ·)) (hlength : 2 ≤ stops.length)
    (hrange : 2 ≤ range.length) :
    ∃ value, Interpolant stops range (min stops.length range.length - 1) value := by
  obtain ⟨value, hfollows, hrun⟩ := exists_follows hstops hlength hrange
  obtain ⟨pieces, hpieces⟩ : ∃ pieces, min stops.length range.length - 1 = pieces := ⟨_, rfl⟩
  rw [hpieces] at hfollows ⊢
  have hpos : 0 < pieces := by omega
  have hstopsBound : pieces < stops.length := by omega
  have hrangeBound : pieces < range.length := by omega
  have hentries {r : Rat → Rat → Prop} (hr : ∀ q, r q q) (h : (range.take (pieces + 1)).Pairwise r)
      (i j : Nat) (hij : i ≤ j) (hj : j ≤ pieces) : r (entryAt range i) (entryAt range j) := by
    rcases hij.eq_or_lt with rfl | hlt
    · exact hr _
    · have hpair := entryAt_pairwise h hlt (by rw [List.length_take]; omega)
      rwa [entryAt_take range (by omega), entryAt_take range (by omega)] at hpair
  refine ⟨value, hrun, existsUnique_onPiece hstops hpos hstopsBound, hfollows,
    fun i hi => hfollows.at_stop hstops hpos hstopsBound hi, fun x => ?_, fun x hx => ?_, fun x hx => ?_,
    fun h => hfollows.mono hstops hpos hstopsBound (hentries le_refl h),
    fun h => hfollows.anti hstops hpos hstopsBound (@hentries (fun r s => s ≤ r) le_refl h)⟩
  · have hstopsTaken : (stops.take (pieces + 1)).length = pieces + 1 := by rw [List.length_take]; omega
    have hrangeTaken : (range.take (pieces + 1)).length = pieces + 1 := by rw [List.length_take]; omega
    obtain ⟨other, hother, hrun'⟩ := exists_follows (hstops.sublist (List.take_sublist (pieces + 1) stops))
      (by omega) (show 2 ≤ (range.take (pieces + 1)).length by omega)
    rw [hstopsTaken, hrangeTaken, Nat.min_self, Nat.add_sub_cancel] at hother
    rw [hrun' x, hfollows.unique hother.of_take hpos hstopsBound.le x]
  · have hfirst : entryAt stops 0 < entryAt stops (0 + 1) := entryAt_pairwise hstops Nat.one_pos (by omega)
    exact hfollows x 0 ⟨hpos, .inl rfl, .inr (hx.trans_lt hfirst)⟩
  · have hlast : entryAt stops (pieces - 1) < entryAt stops pieces :=
      entryAt_pairwise hstops (by omega) hstopsBound
    exact hfollows x (pieces - 1) ⟨by omega, .inr (hlast.le.trans hx), .inl rfl⟩

end Pieces

/-- Interpolation between entries of another form, which are mixed alike. -/
theorem interpolate?_map {α ρ ρ' σ σ' : Type} [Arithmetic α] {blend : ρ → ρ → α → Result σ}
    {blend' : ρ' → ρ' → α → Result σ'} {f : ρ → ρ'} {g : σ → σ'} {entries : List ρ}
    (h : ∀ a ∈ entries, ∀ b ∈ entries, ∀ t, blend' (f a) (f b) t = (blend a b t).map g) (stops : List α)
    (x : α) : interpolate? blend' stops (entries.map f) x =
      (interpolate? blend stops entries x).map (Option.map g) := by
  unfold interpolate?
  simp only [List.length_map, List.getElem?_map]
  cases pieceOf stops (min stops.length entries.length - 1) x with
  | error fault => rfl
  | ok i =>
    simp only [Result.ok_bind]
    cases stops[i]? with
    | none => rfl
    | some start =>
      cases stops[i + 1]? with
      | none => rfl
      | some stop =>
        cases hfirst : entries[i]? with
        | none => rfl
        | some first =>
          cases hlast : entries[i + 1]? with
          | none => rfl
          | some last =>
            have hblend := h first (List.mem_of_getElem? hfirst) last (List.mem_of_getElem? hlast)
            simp only [Option.map_some]
            cases proportion start stop x with
            | error fault => rfl
            | ok t =>
              simp only [Result.ok_bind, hblend]
              cases blend first last t <;> rfl

end Interpolation

namespace Scale

open Interpolation

variable {s : Scale} {stops entries : List Number} {n : Number}

theorem stops?_linear (h : ∀ d ∈ stops, Declared.number (.ofNumber d) = true) :
    ∃ positions, stops.mapM Number.toFloat = .ok positions ∧
      stops? .linear (stops.map .ofNumber) = .ok (some (positions.map .float)) := by
  induction stops with
  | nil => exact ⟨[], rfl, rfl⟩
  | cons d rest ih =>
    obtain ⟨hd, hrest⟩ := List.forall_mem_cons.mp h
    obtain ⟨x, hreads⟩ := Declared.reads_ofNumber hd
    obtain ⟨positions, hmap, hstops⟩ := ih hrest
    refine ⟨x :: positions, ?_, ?_⟩
    · simp only [List.mapM_cons, hreads.float, hmap, Result.ok_bind]
      rfl
    · simp only [List.map_cons, stops?, hreads.toFloat, transform?, hstops, Result.ok_bind]
      rfl

theorem mix_numbers {a b : Number} (ha : Declared.number (.ofNumber a) = true)
    (hb : Declared.number (.ofNumber b) = true) (t : Number) :
    mix (.ofNumber a) (.ofNumber b) t = (between a b t).map .ofNumber := by
  obtain ⟨_, hfirst⟩ := Declared.reads_ofNumber ha
  obtain ⟨_, hlast⟩ := Declared.reads_ofNumber hb
  simp only [mix, hfirst.proper, hlast.proper, Result.ok_bind]

/-- A linear scale that is set to some numbers. -/
structure LinearOn (s : Scale) (stops entries : List Number) : Prop where
  kind : s.kind = .linear
  domain : s.domain = stops.map .ofNumber
  range : s.range = entries.map .ofNumber
  two_stops : 2 ≤ stops.length
  two_entries : 2 ≤ entries.length
  numbers : ∀ d ∈ stops ++ entries, Declared.number (.ofNumber d) = true

/-- The value of a number is found by interpolation between the stops as floating-point numbers. -/
theorem LinearOn.value_eq (h : s.LinearOn stops entries) (hn : Declared.number (.ofNumber n) = true) :
    ∃ positions position, stops.mapM Number.toFloat = .ok positions ∧ n.toFloat = .ok position ∧
      s.value (.ofNumber n) = (interpolate? between (positions.map .float) entries (.float position)).map
        fun found => (found.map .ofNumber).getD s.unknown := by
  obtain ⟨position, hreads⟩ := Declared.reads_ofNumber hn
  obtain ⟨positions, hmap, hstops⟩ := stops?_linear fun d hd => h.numbers d (List.mem_append_left _ hd)
  refine ⟨positions, position, hmap, hreads.float, ?_⟩
  have hlong : (decide ((stops.map Json.ofNumber).length < 2) ||
      decide ((entries.map Json.ofNumber).length < 2)) = false := by
    simp [Nat.not_lt.mpr h.two_stops, Nat.not_lt.mpr h.two_entries]
  have hmix : ∀ a ∈ entries, ∀ b ∈ entries, ∀ t,
      mix (.ofNumber a) (.ofNumber b) t = (between a b t).map .ofNumber := fun a ha b hb =>
    mix_numbers (h.numbers a (List.mem_append_right _ ha)) (h.numbers b (List.mem_append_right _ hb))
  simp only [value, h.kind, continuousValue, hreads.proper, hreads.float, hlong, Bool.false_eq_true, if_false,
    transform?, h.domain, hstops, Result.ok_bind, h.range, interpolate?_map hmix]
  cases interpolate? between (positions.map .float) entries (.float position) <;> rfl

/-- A linear scale interpolates between the numbers it is set to, and interpolation between ascending stops
follows the lines of their pieces. -/
theorem linear_interpolant :
    (∀ s stops entries n, LinearOn s stops entries → Declared.number (.ofNumber n) = true →
      ∃ positions position, stops.mapM Number.toFloat = .ok positions ∧ n.toFloat = .ok position ∧
        s.value (.ofNumber n) = (interpolate? between (positions.map .float) entries (.float position)).map
          fun found => (found.map .ofNumber).getD s.unknown) ∧
    ∀ stops range : List Rat, stops.Pairwise (· < ·) → 2 ≤ stops.length → 2 ≤ range.length →
      ∃ value, Interpolant stops range (min stops.length range.length - 1) value :=
  ⟨fun _ _ _ _ h hn => h.value_eq hn, fun _ _ => exists_interpolant⟩

/-- Stops with one more than there are entries. -/
def speedLimits : Scale :=
  ((new .linear).withDomain ([0, 30, 50, 130].map .int)).withRange ([1, 7, 9].map .int)

theorem linear_interpolant_surplus :
    (∃ positions position, [Number.int 0, .int 30, .int 50, .int 130].mapM Number.toFloat = .ok positions ∧
      (Number.int 40).toFloat = .ok position ∧
      speedLimits.value (.int 40) =
        (interpolate? between (positions.map .float) [.int 1, .int 7, .int 9] (.float position)).map
          fun found => (found.map .ofNumber).getD speedLimits.unknown) ∧
    ∃ value, Interpolant [0, 30, 50, 130] [1, 7, 9] 2 value := by
  have hscale : speedLimits.LinearOn [.int 0, .int 30, .int 50, .int 130] [.int 1, .int 7, .int 9] :=
    ⟨rfl, rfl, rfl, by decide, by decide, by decide +kernel⟩
  exact ⟨linear_interpolant.1 speedLimits _ _ (.int 40) hscale (by decide +kernel),
    linear_interpolant.2 [0, 30, 50, 130] [1, 7, 9] (by decide) (by decide) (by decide)⟩

end Scale

end MapLayers
