import MapLayers.Proofs.BucketOrder
import MapLayers.Proofs.FloatBounds
import MapLayers.Proofs.NumericScales
import MapLayers.Proofs.ReadableDomains

/-!
# Logarithmic domains

The logarithmic domain of a column runs from its smallest number to its largest one, with a small positive
number in the place of a smallest one of zero. For numbers that are not negative the first end is always on
the axis. But the small number is put in without a look at the other end, so the ends are out of order if
that end is below it, and if there is nothing but zeros a scale over the domain knows no value at all.
-/

namespace MapLayers

namespace Number

variable {a b : Number} {x : Float}

theorem isNaN_toFloat_iff (hx : a.toFloat = .ok x) : Binary64.isNaN x = true ↔ a.position? = none := by
  constructor
  · intro hnan
    by_contra hplace
    rw [isNaN_toFloat (Option.isSome_iff_ne_none.mpr hplace) hx] at hnan
    exact Bool.noConfusion hnan
  · intro hplace
    cases a with
    | int n => simp [position?] at hplace
    | float y =>
      obtain rfl : y = x := Except.ok.inj hx
      unfold position? at hplace
      dsimp only at hplace
      split at hplace
      · simp at hplace
      · split_ifs at hplace with hnan
        exact hnan

/-- Where a finite number stands. -/
def place (a : Number) : Rat :=
  match a.position? with
  | some (.finite q) => q
  | _ => 0

theorem place_eq {q : Rat} (h : a.position? = some (.finite q)) : a.place = q := by
  rw [place, h]

def IsFinite (a : Number) : Prop := a.position? = some (.finite a.place)

theorem less_eq (ha : a.IsFinite) (hb : b.IsFinite) : a.less b = decide (a.place < b.place) := by
  rw [less, ha, hb]
  rfl

theorem same_zero (ha : a.IsFinite) : a.same (.int 0) = decide (a.place = 0) := by
  rw [same, ha]
  simp [position?]

theorem rounded_pos_iff (ha : a.IsFinite) : 0 < Binary64.rounded a.place ↔ 0 < a.place := by
  constructor
  · intro hpos
    by_contra hle
    have := Binary64.rounded_mono (not_lt.mp hle)
    rw [Binary64.rounded_zero] at this
    linarith
  · intro hpos
    cases a with
    | int m =>
      have hplace : (int m).place = m := rfl
      rw [hplace] at hpos ⊢
      have hone : (1 : Rat) ≤ m := by exact_mod_cast (Int.cast_pos.mp hpos : 0 < m)
      exact one_pos.trans_le (Binary64.le_rounded Binary64.representable_one hone)
    | float x =>
      have hvalue := position?_float.mp ha
      rwa [Binary64.rounded_eq_self (Binary64.of_value?_eq_some hvalue).1]

end Number

theorem Declared.number_iff {n : Number} : number (.ofNumber n) = true ↔
    n.IsFinite ∧ fitsDouble (.ofNumber n) = true := by
  refine Bool.and_eq_true_iff.trans (and_congr_left fun _ => ?_)
  cases n with
  | int m => exact iff_of_true rfl rfl
  | float x =>
    show Binary64.isFinite x = true ↔ _
    rw [Number.IsFinite, Number.position?_float]
    by_cases h : Binary64.isFinite x = true
    · obtain ⟨q, hq⟩ : ∃ q, Binary64.value? x = some q := ⟨_, if_pos h⟩
      exact iff_of_true h (by rw [Number.place_eq (Number.position?_float.mpr hq), hq])
    · have hnone : Binary64.value? x = none := if_neg h
      exact iff_of_false h (by rw [hnone]; exact nofun)

theorem Json.eq_ofNumber {value : Json} {n : Number} (h : value.number? = some n) : value = .ofNumber n := by
  cases value <;> simp [Json.number?] at h <;> subst h <;> rfl

namespace Statistics

open Number (place)

variable {numbers : List Number} {values : List Json}

theorem properNumber?_eq_filter {value : Json} {found : Option Number} (h : value.properNumber? = .ok found) :
    found = value.number?.filter fun n => n.position?.isSome := by
  unfold Json.properNumber? at h
  cases hn : value.number? with
  | none =>
    rw [hn] at h
    exact (Except.ok.inj h).symm
  | some n =>
    simp only [hn, Result.bind_eq_ok_iff, Result.pure_eq_ok_iff] at h
    obtain ⟨x, hx, rfl⟩ := h
    have hnan := Number.isNaN_toFloat_iff hx
    cases hplace : n.position? <;> simp_all [Option.filter]

theorem numbers_eq (h : Statistics.numbers values = .ok numbers) :
    numbers = values.filterMap fun value => value.number?.filter fun n => n.position?.isSome := by
  induction values generalizing numbers with
  | nil => exact (Except.ok.inj h).symm
  | cons value rest ih =>
    simp only [Statistics.numbers, Result.bind_eq_ok_iff] at h
    obtain ⟨found, hfound, h⟩ := h
    rw [List.filterMap_cons, ← properNumber?_eq_filter hfound]
    cases found with
    | none => exact ih h
    | some n =>
      simp only [Result.bind_eq_ok_iff, Result.pure_eq_ok_iff] at h
      obtain ⟨others, hothers, rfl⟩ := h
      rw [ih hothers]

theorem mem_numbers (h : Statistics.numbers values = .ok numbers) (n : Number) :
    n ∈ numbers ↔ ∃ value ∈ values, value.number? = some n ∧ n.position?.isSome = true := by
  simp only [numbers_eq h, List.mem_filterMap, Option.filter_eq_some_iff]

/-- What is better than the best so far takes its place. In the end nothing is better. -/
theorem foldl_best (better : Number → Number → Bool) (key : Number → Rat) {rest : List Number} {first : Number}
    (h : ∀ a ∈ first :: rest, ∀ b ∈ first :: rest, better a b = decide (key a < key b)) :
    ∃ best ∈ first :: rest, rest.foldl (fun best n => if better n best then n else best) first = best ∧
      ∀ n ∈ first :: rest, key best ≤ key n := by
  induction rest generalizing first with
  | nil => exact ⟨first, by simp, rfl, by simp⟩
  | cons next rest ih =>
    have hnext := h next (by simp) first (by simp)
    rw [List.foldl_cons]
    cases hbetter : better next first with
    | true =>
      obtain ⟨best, hmem, hfold, hleast⟩ := @ih next fun a ha b hb =>
        h a (List.mem_cons_of_mem _ ha) b (List.mem_cons_of_mem _ hb)
      rw [hbetter, eq_comm, decide_eq_true_iff] at hnext
      refine ⟨best, List.mem_cons_of_mem _ hmem, hfold, List.forall_mem_cons.mpr ⟨?_, hleast⟩⟩
      exact (hleast next (by simp)).trans hnext.le
    | false =>
      obtain ⟨best, hmem, hfold, hleast⟩ := @ih first fun a ha b hb =>
        h a (by grind) b (by grind)
      rw [hbetter, eq_comm, decide_eq_false_iff_not, not_lt] at hnext
      obtain ⟨hfirst, hrest⟩ := List.forall_mem_cons.mp hleast
      exact ⟨best, by grind, hfold, List.forall_mem_cons.mpr
        ⟨hfirst, List.forall_mem_cons.mpr ⟨hfirst.trans hnext, hrest⟩⟩⟩

theorem smallest_spec (hfinite : ∀ n ∈ numbers, n.IsFinite) (hne : numbers ≠ []) :
    ∃ low ∈ numbers, smallest numbers = some low ∧ ∀ n ∈ numbers, low.place ≤ n.place := by
  cases numbers with
  | nil => exact absurd rfl hne
  | cons first rest =>
    obtain ⟨low, hmem, hfold, hleast⟩ := foldl_best (fun n best => n.less best) place
      fun a ha b hb => Number.less_eq (hfinite a ha) (hfinite b hb)
    exact ⟨low, hmem, congrArg some hfold, hleast⟩

theorem largest_spec (hfinite : ∀ n ∈ numbers, n.IsFinite) (hne : numbers ≠ []) :
    ∃ high ∈ numbers, largest numbers = some high ∧ ∀ n ∈ numbers, n.place ≤ high.place := by
  cases numbers with
  | nil => exact absurd rfl hne
  | cons first rest =>
    obtain ⟨high, hmem, hfold, hleast⟩ := foldl_best (fun n best => best.less n)
      (fun n => -n.place) fun a ha b hb => by
        rw [Number.less_eq (hfinite b hb) (hfinite a ha)]
        exact decide_eq_decide.mpr neg_lt_neg_iff.symm
    exact ⟨high, hmem, congrArg some hfold, fun n hn => neg_le_neg_iff.mp (hleast n hn)⟩

end Statistics

/-- The values of a column in those rows that are objects. -/
def Row.columnOf (rows : List Json) (name : String) : List Json :=
  (rows.filter Json.isObject).map fun row => Json.fieldOf row.fieldsOrNone name

theorem Row.columnValues_list (rows : List Json) (name : String) :
    columnValues (.list rows) (.text name) = .ok (columnOf rows name) := by
  have hread : ∀ row ∈ rows.filter Json.isObject,
      row.lookupBy (.text name) = pure (Json.fieldOf row.fieldsOrNone name) := by
    intro row hrow
    rw [Json.eq_object_of_isObject (List.mem_filter.mp hrow).2]
    rfl
  exact (Result.mapM_congr hread).trans List.mapM_pure

/-- The value is a finite number at a place. -/
def Json.StandsAt (value : Json) (q : Rat) : Prop :=
  ∃ n, value.number? = some n ∧ n.position? = some (.finite q)

/-- There are numbers among the values, and all of them but NaN are finite and not negative. -/
structure NonNegative (values : List Json) : Prop where
  some_number : ∃ value ∈ values, ∃ q, value.StandsAt q
  nonneg : ∀ value ∈ values, ∀ n place, value.number? = some n → n.position? = some place →
    ∃ q, place = .finite q ∧ 0 ≤ q

variable {values : List Json} {numbers : List Number} {n : Number} {q : Rat}

namespace NonNegative

theorem finite (h : NonNegative values) (hnumbers : Statistics.numbers values = .ok numbers)
    (hn : n ∈ numbers) : n.IsFinite ∧ 0 ≤ n.place := by
  obtain ⟨value, hvalue, hnumber, hplaced⟩ := (Statistics.mem_numbers hnumbers n).mp hn
  obtain ⟨place, hplace⟩ := Option.isSome_iff_exists.mp hplaced
  obtain ⟨q, rfl, hq⟩ := h.nonneg value hvalue n place hnumber hplace
  rw [Number.IsFinite, Number.place_eq hplace]
  exact ⟨hplace, hq⟩

theorem ne_nil (h : NonNegative values) (hnumbers : Statistics.numbers values = .ok numbers) :
    numbers ≠ [] := by
  obtain ⟨value, hvalue, q, n, hnumber, hplace⟩ := h.some_number
  have hmem : n ∈ numbers := (Statistics.mem_numbers hnumbers n).mpr ⟨value, hvalue, hnumber, by simp [hplace]⟩
  exact List.ne_nil_of_mem hmem

theorem standsAt_iff (h : NonNegative values) (hnumbers : Statistics.numbers values = .ok numbers) :
    (∃ value ∈ values, value.StandsAt q) ↔ ∃ n ∈ numbers, n.place = q := by
  constructor
  · rintro ⟨value, hvalue, n, hnumber, hplace⟩
    exact ⟨n, (Statistics.mem_numbers hnumbers n).mpr ⟨value, hvalue, hnumber, by simp [hplace]⟩,
      Number.place_eq hplace⟩
  · rintro ⟨n, hn, rfl⟩
    obtain ⟨value, hvalue, hnumber, -⟩ := (Statistics.mem_numbers hnumbers n).mp hn
    exact ⟨value, hvalue, n, hnumber, (h.finite hnumbers hn).1⟩

end NonNegative

namespace Domain

/-- Where the number stands that takes the place of zero. -/
def floorPlace : Rat := (Number.float logFloor).place

theorem logFloor_isFinite : (Number.float logFloor).IsFinite :=
  Number.position?_float.mpr (if_pos (by decide))

theorem floorPlace_pos : 0 < floorPlace := by
  decide +kernel

/-- The values start at zero and end below the number that takes the place of zero. -/
def EndsBelowFloor (values : List Json) : Prop :=
  (∃ value ∈ values, value.StandsAt 0) ∧ ∀ value ∈ values, ∀ q, value.StandsAt q → q < floorPlace

/-- The first end of a logarithmic domain that would start at a number. -/
def raised (low : Number) : Number := if low.same (.int 0) then .float logFloor else low

/-- How the ends of a logarithmic domain relate to the values of the column. -/
structure PositiveExtent (values : List Json) (low high : Number) (p q : Rat) : Prop where
  low : low.position? = some (.finite p)
  high : high.position? = some (.finite q)
  pos : 0 < p
  attained : ∃ value ∈ values, value.StandsAt q
  largest : ∀ value ∈ values, ∀ r, value.StandsAt r → r ≤ q
  ordered : p ≤ q ↔ ¬EndsBelowFloor values

theorem extent_positive (h : NonNegative values) (hnumbers : Statistics.numbers values = .ok numbers) :
    ∃ low ∈ numbers, ∃ high ∈ numbers, extent true numbers = [.ofNumber (raised low), .ofNumber high] ∧
      PositiveExtent values (raised low) high (raised low).place high.place := by
  have hfinite : ∀ n ∈ numbers, n.IsFinite := fun n hn => (h.finite hnumbers hn).1
  obtain ⟨low, hlow, hsmallest, hleast⟩ := Statistics.smallest_spec hfinite (h.ne_nil hnumbers)
  obtain ⟨high, hhigh, hlargest, hmost⟩ := Statistics.largest_spec hfinite (h.ne_nil hnumbers)
  have hmax : ∀ value ∈ values, ∀ r, value.StandsAt r → r ≤ high.place := by
    intro value hvalue r hr
    obtain ⟨n, hn, rfl⟩ := (h.standsAt_iff hnumbers).mp ⟨value, hvalue, hr⟩
    exact hmost n hn
  have hattained : ∃ value ∈ values, value.StandsAt high.place :=
    (h.standsAt_iff hnumbers).mpr ⟨high, hhigh, rfl⟩
  refine ⟨low, hlow, high, hhigh, ?_, ?_⟩
  · simp only [extent, hsmallest, hlargest, Bool.true_and, raised]
  have hsame := Number.same_zero (hfinite low hlow)
  by_cases hzero : low.place = 0
  · have hraised : raised low = .float logFloor := by rw [raised, hsame, if_pos (by simpa using hzero)]
    rw [hraised]
    refine ⟨logFloor_isFinite, hfinite high hhigh, floorPlace_pos, hattained, hmax, ?_⟩
    have hstarts : ∃ value ∈ values, value.StandsAt 0 := (h.standsAt_iff hnumbers).mpr ⟨low, hlow, hzero⟩
    rw [← not_lt, not_iff_not]
    refine ⟨fun hless => ⟨hstarts, fun value hvalue r hr => (hmax value hvalue r hr).trans_lt hless⟩, ?_⟩
    rintro ⟨-, hbelow⟩
    obtain ⟨value, hvalue, hr⟩ := hattained
    exact hbelow value hvalue _ hr
  · have hraised : raised low = low := by rw [raised, hsame, if_neg (by simpa using hzero)]
    have hpos : 0 < low.place := lt_of_le_of_ne (h.finite hnumbers hlow).2 (Ne.symm hzero)
    rw [hraised]
    refine ⟨hfinite low hlow, hfinite high hhigh, hpos, hattained, hmax, iff_of_true (hleast high hhigh) ?_⟩
    rintro ⟨hstarts, -⟩
    obtain ⟨n, hn, hplace⟩ := (h.standsAt_iff hnumbers).mp hstarts
    have := hleast n hn
    linarith

end Domain

namespace Scale

variable {s : Scale} {low high : Number}

theorem axis?_log (hnumber : Declared.number (.ofNumber n) = true) :
    (axis? .log (.ofNumber n)).isSome = true ↔ 0 < n.place := by
  obtain ⟨x, hreads⟩ := Declared.reads_ofNumber hnumber
  have hn := (Declared.number_iff.mp hnumber).1
  have hvalue := Number.toFloat_value hreads.float hn
  have hle : x ≤ 0 ↔ Binary64.rounded n.place ≤ 0 := Binary64.le_iff hvalue Binary64.value?_zero_lit
  rw [axis?, hreads.toFloat, ← Number.rounded_pos_iff hn, ← not_le, ← hle, Result.toOption_ok,
    Option.bind_some, transform?]
  split_ifs with hx <;> simp [hx]

theorem log_mixes {first second : Json} {rest : List Json} (hkind : s.kind = .log)
    (hbounded : s.Bounded (.ofNumber low) (.ofNumber high)) (hrange : s.range = first :: second :: rest)
    (hlow : (axis? .log (.ofNumber low)).isSome = true) (hhigh : (axis? .log (.ofNumber high)).isSome = true)
    (hnumber : Declared.number (.ofNumber n) = true) (hpos : 0 < n.place) :
    ∃ t, s.value (.ofNumber n) = mix first second t := by
  obtain ⟨x, hreads⟩ := Declared.reads_ofNumber hnumber
  obtain ⟨start, hstart⟩ := Option.isSome_iff_exists.mp hlow
  obtain ⟨stop, hstop⟩ := Option.isSome_iff_exists.mp hhigh
  obtain ⟨position, hposition⟩ := Option.isSome_iff_exists.mp ((axis?_log hnumber).mpr hpos)
  have hvalue : s.value (.ofNumber n) = s.continuousValue (.ofNumber n) := by rw [value, hkind]
  refine ⟨.float (Interpolation.share start stop position), ?_⟩
  rw [hvalue, continuousValue_bounds hbounded hrange hreads, hkind, share?, hstart, hstop, hposition]
  rfl

theorem log_unknown (hkind : s.kind = .log) (hbounded : s.Bounded (.ofNumber low) (.ofNumber high))
    (hhigh : axis? .log (.ofNumber high) = none) (hnumber : Declared.number (.ofNumber n) = true) :
    s.value (.ofNumber n) = .ok s.unknown := by
  obtain ⟨x, hreads⟩ := Declared.reads_ofNumber hnumber
  have hvalue : s.value (.ofNumber n) = s.continuousValue (.ofNumber n) := by rw [value, hkind]
  rw [hvalue]
  rcases hrange : s.range with _ | ⟨first, _ | ⟨second, rest⟩⟩
  · simp [continuousValue, hreads.proper, hrange, pure, Except.pure]
  · simp [continuousValue, hreads.proper, hrange, pure, Except.pure]
  · rw [continuousValue_bounds hbounded hrange hreads, hkind, share?, hhigh]
    cases axis? .log (.ofNumber low) <;> rfl

end Scale

namespace Domain

open Result (Succeeds)

/-- What a logarithmic scale over two ends knows, with or without an upper end of zero. -/
structure Scales (low high : Number) (q : Rat) : Prop where
  low_on_axis : (Scale.axis? .log (.ofNumber low)).isSome = true
  high_on_axis : (Scale.axis? .log (.ofNumber high)).isSome = true ↔ q ≠ 0
  unknown : q = 0 → ∀ s : Scale, ∀ n, s.kind = .log → s.domain = [.ofNumber low, .ofNumber high] →
    Declared.number (.ofNumber n) = true → s.value (.ofNumber n) = .ok s.unknown
  mixes : q ≠ 0 → ∀ s : Scale, ∀ n first second rest, s.kind = .log →
    s.domain = [.ofNumber low, .ofNumber high] → s.range = first :: second :: rest →
    Declared.number (.ofNumber n) = true → (Number.int 0).less n = true →
    ∃ t, s.value (.ofNumber n) = Scale.mix first second t

theorem scales_of_ends {low high : Number} {p : Rat} (hlow : low.position? = some (.finite p))
    (hhigh : high.position? = some (.finite q)) (hp : 0 < p) (hq : 0 ≤ q)
    (hlowNumber : Declared.number (.ofNumber low) = true)
    (hhighNumber : Declared.number (.ofNumber high) = true) : Scales low high q := by
  obtain rfl := Number.place_eq hlow
  obtain rfl := Number.place_eq hhigh
  have hlowAxis := (Scale.axis?_log hlowNumber).mpr hp
  have hhighAxis : (Scale.axis? .log (.ofNumber high)).isSome = true ↔ high.place ≠ 0 :=
    (Scale.axis?_log hhighNumber).trans hq.lt_iff_ne'
  have hbounded {s : Scale} (hdomain : s.domain = [.ofNumber low, .ofNumber high]) :
      s.Bounded (.ofNumber low) (.ofNumber high) :=
    ⟨hdomain, Declared.optional_iff.mpr (.inr hlowNumber), Declared.optional_iff.mpr (.inr hhighNumber)⟩
  refine ⟨hlowAxis, hhighAxis, fun hzero s n hkind hdomain hn => ?_,
    fun hne s n first second rest hkind hdomain hrange hn hpos => ?_⟩
  · refine Scale.log_unknown hkind (hbounded hdomain) ?_ hn
    rw [← Option.not_isSome_iff_eq_none, hhighAxis]
    exact not_not.mpr hzero
  · rw [Number.less_eq (a := .int 0) rfl (Declared.number_iff.mp hn).1, decide_eq_true_iff] at hpos
    exact Scale.log_mixes hkind (hbounded hdomain) hrange hlowAxis (hhighAxis.mpr hne) hn hpos

theorem ofData_rows (rows : List Json) (name : String) (shape : Shape) :
    ofData (.list rows) (.text name) shape = ofValues (Row.columnOf rows name) shape := by
  show (Row.columnValues (.list rows) (.text name) >>= fun values => ofValues values shape) = _
  rw [Row.columnValues_list, Result.ok_bind]

/-- From a column of numbers that are not negative a logarithmic domain can be derived exactly if none of
them is too large for a floating-point number. Its first end is positive, and not above the second one unless
the column starts at zero and ends below the number that takes the place of zero. A scale over the domain
mixes colors or sizes for positive numbers, unless the second end is zero. -/
theorem log_domain_ends (rows : List Json) (name : String) (h : NonNegative (Row.columnOf rows name)) :
    (Succeeds (ofData (.list rows) (.text name) (.ofKind .log)) ↔
      ∀ value ∈ Row.columnOf rows name, Declared.fitsDouble value = true) ∧
    ∀ domain, ofData (.list rows) (.text name) (.ofKind .log) = .ok domain →
      ∃ low high p q, domain = [.ofNumber low, .ofNumber high] ∧
        PositiveExtent (Row.columnOf rows name) low high p q ∧ Scales low high q := by
  rw [ofData_rows]
  refine ⟨ofValues_succeeds_iff, fun domain hdomain => ?_⟩
  have hfits := ofValues_succeeds_iff.mp ⟨domain, hdomain⟩
  obtain ⟨numbers, hnumbers, hextent⟩ : ∃ numbers,
      Statistics.numbers (Row.columnOf rows name) = .ok numbers ∧ extent true numbers = domain := by
    simpa only [ofValues, Shape.ofKind, Result.bind_eq_ok_iff, Result.pure_eq_ok_iff] using hdomain
  obtain ⟨low, hlow, high, hhigh, hpair, hends⟩ := extent_positive h hnumbers
  have hnumber (n : Number) (hn : n ∈ numbers) : Declared.number (.ofNumber n) = true := by
    obtain ⟨value, hvalue, hread, -⟩ := (Statistics.mem_numbers hnumbers n).mp hn
    obtain rfl := Json.eq_ofNumber hread
    exact Declared.number_iff.mpr ⟨(h.finite hnumbers hn).1, hfits _ hvalue⟩
  have hraised : Declared.number (.ofNumber (raised low)) = true := by
    unfold raised
    split
    · exact Declared.number_iff.mpr ⟨logFloor_isFinite, rfl⟩
    · exact hnumber low hlow
  refine ⟨raised low, high, _, _, hextent.symm.trans hpair, hends, ?_⟩
  exact scales_of_ends hends.low hends.high hends.pos (h.finite hnumbers hhigh).2 hraised (hnumber high hhigh)

theorem nonNegative_counts {counts : List Nat} (hne : counts ≠ []) :
    NonNegative (counts.map fun n : Nat => .int n) := by
  obtain ⟨first, rest, rfl⟩ := List.exists_cons_of_ne_nil hne
  refine ⟨⟨.int first, by simp, first, .int first, rfl, rfl⟩, fun value hvalue n place hnumber hplace => ?_⟩
  obtain ⟨count, -, rfl⟩ := List.mem_map.mp hvalue
  obtain rfl := Option.some.inj hnumber
  obtain rfl := Option.some.inj hplace
  exact ⟨_, rfl, by exact_mod_cast Nat.zero_le count⟩

/-- Rows with a column of counts. -/
def countRows (counts : List Nat) : List Json := counts.map fun n : Nat => .object [("n", .int n)]

theorem columnOf_countRows (counts : List Nat) :
    Row.columnOf (countRows counts) "n" = counts.map fun n : Nat => .int n := by
  induction counts with
  | nil => rfl
  | cons first rest ih => exact congrArg (Json.int first :: ·) ih

/-- A column that starts at zero and ends above one. -/
theorem log_domain_ends_hundred : ∃ low high p q,
    ofData (.list (countRows [0, 100])) (.text "n") (.ofKind .log) = .ok [.ofNumber low, .ofNumber high] ∧
      PositiveExtent (Row.columnOf (countRows [0, 100]) "n") low high p q ∧ Scales low high q := by
  obtain ⟨hsucceeds, hends⟩ := log_domain_ends (countRows [0, 100]) "n"
    (columnOf_countRows [0, 100] ▸ nonNegative_counts (by decide))
  obtain ⟨domain, hdomain⟩ := hsucceeds.mpr (by rw [columnOf_countRows]; decide +kernel)
  obtain ⟨low, high, p, q, rfl, hextent, hscales⟩ := hends domain hdomain
  exact ⟨low, high, p, q, hdomain, hextent, hscales⟩

/-- The domain of nothing but zeros ends at zero, below its first end, and a scale over it does not know
the number one. -/
theorem log_domain_of_zeros : NonNegative (Row.columnOf (countRows [0]) "n") ∧
    ofData (.list (countRows [0])) (.text "n") (.ofKind .log) = .ok [.float logFloor, .int 0] ∧
    (Number.int 0).less (.float logFloor) = true ∧
    ((Scale.new .log).withDomain [.float logFloor, .int 0]).value (.int 1) = .ok .null := by
  have hzero : ¬(Scale.axis? .log (.ofNumber (.int 0))).isSome = true := by
    rw [Scale.axis?_log (by decide)]
    exact lt_irrefl 0
  have hbounded : ((Scale.new .log).withDomain [.float logFloor, .int 0]).Bounded
      (.ofNumber (.float logFloor)) (.ofNumber (.int 0)) := ⟨rfl, by decide, by decide⟩
  exact ⟨columnOf_countRows [0] ▸ nonNegative_counts (by decide), rfl, by decide +kernel,
    Scale.log_unknown (n := .int 1) rfl hbounded (Option.not_isSome_iff_eq_none.mp hzero) (by decide +kernel)⟩

end Domain

end MapLayers
