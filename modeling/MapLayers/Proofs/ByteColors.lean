import MapLayers.Proofs.ColorSpecifiers
import MapLayers.Proofs.Palettes

/-!
# Byte colors

A list of channels is brought into range channel by channel, a specifier is not. A color is read back from
its own channels exactly if it is a byte color, so what a specifier with a number beyond its range gives is
not what it is read back as. Whatever a scale makes by mixing is a byte color; what it takes over is as good
as its source.
-/

namespace MapLayers.Color

open Binary64

variable {value : Json} {c : Color} {n : Int}

theorem clampByte_isByte (n : Int) : IsByte (clampByte n) := clampByte_mem n

theorem channel_isByte (h : channel value = .ok n) : IsByte n := by
  simp only [channel, Result.bind_eq_ok_iff, Result.pure_eq_ok_iff] at h
  obtain ⟨x, -, m, -, rfl⟩ := h
  exact clampByte_isByte m

/-- A whole number is brought into range. -/
theorem channel_int (hn : |n| ≤ 2 ^ 53) : channel (.int n) = .ok (clampByte n) := by
  have hrepresentable := representable_intCast hn
  have hsize : |(n : Rat)| < 2 ^ (1024 : Int) := by
    calc |(n : Rat)| ≤ 2 ^ (53 : Int) := by exact_mod_cast hn
      _ < 2 ^ (1024 : Int) := zpow_two_lt_iff.mpr (by decide)
  obtain ⟨x, hx, hvalue⟩ := exists_nearest (nearestValue?_of_representable hrepresentable hsize)
  have hfloat : (Json.int n).toFloat = .ok x := by
    change (Number.int n).toFloat = _
    simp [Number.toFloat, Number.ofInt?, hx]
  simp only [channel, hfloat, Result.ok_bind, Number.toInt, hvalue, roundHalfEven_intCast]
  rfl

theorem channel_of_isByte (h : IsByte n) : channel (.int n) = .ok n := by
  rw [channel_int (abs_le.mpr ⟨by have := h.1; omega, by have := h.2; omega⟩), clampByte_eq h.1 h.2]

/-- A color is read back from its channels exactly if they are bytes. -/
theorem ofJson_toJson_iff (c : Color) : ofJson c.toJson = .ok c ↔ c.InBytes := by
  constructor
  · intro h
    simp only [ofJson, toJson, Result.bind_eq_ok_iff, Result.pure_eq_ok_iff] at h
    obtain ⟨red, hred, green, hgreen, blue, hblue, alpha, halpha, rfl⟩ := h
    exact ⟨channel_isByte hred, channel_isByte hgreen, channel_isByte hblue, channel_isByte halpha⟩
  · rintro ⟨hred, hgreen, hblue, halpha⟩
    simp only [ofJson, toJson, channel_of_isByte hred, channel_of_isByte hgreen,
      channel_of_isByte hblue, channel_of_isByte halpha, Result.ok_bind]
    rfl

/-- Whether a channel of a color text leaves the bytes. -/
def Overshoots (value : Json) : Prop :=
  ∃ s spec, value = .text s ∧ Specifier.read? (Text.lower (Text.trim s)).toList = some spec ∧
    spec.Overshoots

/-- Whether a color text names an amount beyond those that its form provides for. -/
def Exceeds (value : Json) : Prop :=
  ∃ s spec, value = .text s ∧ Specifier.read? (Text.lower (Text.trim s)).toList = some spec ∧
    spec.Exceeds

theorem length_lower_le (s : String) : (Text.lower s).toList.length ≤ 2 * s.length := by
  have hfrom : ∀ before cs, (Text.lowerFrom before cs).length ≤ 2 * cs.length := by
    intro before cs
    induction cs generalizing before with
    | nil => simp [Text.lowerFrom]
    | cons c rest ih =>
      have hone : (Text.lowerChar before c rest).length ≤ 2 := by
        unfold Text.lowerChar
        split_ifs <;> simp
      rw [Text.lowerFrom, List.length_append, List.length_cons]
      have := ih (c :: before)
      omega
  rw [Text.lower, String.toList_ofList, ← String.length_toList]
  exact hfrom [] s.toList

/-- A text is as long as its specifier may be, and has the color of what it says. -/
theorem ofSpecifier_inv {s : String} (h : ofSpecifier s = .ok c) :
    ∃ spec, Specifier.read? (Text.lower (Text.trim s)).toList = some spec ∧
      spec.WellFormed 200 ∧ c = spec.color := by
  unfold ofSpecifier at h
  dsimp only at h
  split at h
  · simp at h
  · next hlength =>
    split at h
    · next color hcolor =>
      rw [Specifier.ofLower?_eq, Option.map_eq_some_iff] at hcolor
      obtain ⟨spec, hspec, rfl⟩ := hcolor
      have hshort : (Text.lower (Text.trim s)).toList.length ≤ 200 := by
        have := length_lower_le (Text.trim s)
        unfold maxSpecifier at hlength
        omega
      exact ⟨spec, hspec, Specifier.read?_wellFormed hshort hspec, (Except.ok.inj h).symm⟩
    · simp at h

theorem not_overshoots_list (items : List Json) : ¬Overshoots (.list items) := by
  rintro ⟨s, spec, htext, -⟩
  simp at htext

/-- What a value denotes is a byte color unless a channel of it leaves the bytes. -/
theorem inBytes_iff (h : ofJson value = .ok c) : c.InBytes ↔ ¬Overshoots value := by
  unfold ofJson at h
  split at h
  · next s =>
    obtain ⟨spec, hread, hwell, rfl⟩ := ofSpecifier_inv h
    rw [Specifier.color_inBytes_iff hwell]
    refine not_congr ⟨fun hover => ⟨s, spec, rfl, hread, hover⟩, ?_⟩
    rintro ⟨s', spec', hs, hread', hover⟩
    obtain rfl := Json.text.inj hs
    exact Option.some.inj (hread.symm.trans hread') ▸ hover
  · simp only [Result.bind_eq_ok_iff, Result.pure_eq_ok_iff] at h
    obtain ⟨red, hred, green, hgreen, blue, hblue, rfl⟩ := h
    exact iff_of_true ⟨channel_isByte hred, channel_isByte hgreen, channel_isByte hblue, isByte_full⟩
      (not_overshoots_list _)
  · simp only [Result.bind_eq_ok_iff, Result.pure_eq_ok_iff] at h
    obtain ⟨red, hred, green, hgreen, blue, hblue, alpha, halpha, rfl⟩ := h
    exact iff_of_true
      ⟨channel_isByte hred, channel_isByte hgreen, channel_isByte hblue, channel_isByte halpha⟩
      (not_overshoots_list _)
  · simp at h

theorem Overshoots.exceeds (h : Overshoots value) : Exceeds value := by
  obtain ⟨s, spec, rfl, hread, hover⟩ := h
  exact ⟨s, spec, rfl, hread, hover.exceeds (Specifier.read?_wellFormed le_rfl hread)⟩

theorem blendChannel_isByte {start stop : Int} {t : Number} (h : blendChannel start stop t = .ok n) :
    IsByte n := by
  simp only [blendChannel, Result.bind_eq_ok_iff] at h
  obtain ⟨way, -, mixed, -, hchannel⟩ := h
  exact channel_isByte hchannel

theorem blend_inBytes {start stop t : Json} (h : blend start stop t = .ok c) : c.InBytes := by
  simp only [blend, Result.bind_eq_ok_iff, Result.pure_eq_ok_iff] at h
  obtain ⟨a, -, b, -, t, -, red, hred, green, hgreen, blue, hblue, alpha, halpha, rfl⟩ := h
  exact ⟨blendChannel_isByte hred, blendChannel_isByte hgreen, blendChannel_isByte hblue,
    blendChannel_isByte halpha⟩

theorem alphaOfOpacity_isByte {opacity : Json} (h : alphaOfOpacity opacity = .ok n) : IsByte n := by
  unfold alphaOfOpacity at h
  split at h
  · rw [← Except.ok.inj h]
    exact isByte_full
  · simp only [Result.bind_eq_ok_iff, Result.pure_eq_ok_iff] at h
    obtain ⟨x, -, m, -, rfl⟩ := h
    exact clampByte_isByte m

end MapLayers.Color

namespace MapLayers.Scale

open Color (InBytes Overshoots)

/-- What a scale can give for a value. -/
inductive Gives (s : Scale) (input : Json) : Json → Prop
  | unknown : Gives s input s.unknown
  | listed {entry : Json} (h : entry ∈ s.range) : Gives s input entry
  | mixed {c : Color} (h : c.InBytes) : Gives s input c.toJson
  | number (n : Number) : Gives s input (.ofNumber n)
  | itself (h : s.kind = .identity) : Gives s input input

variable {s : Scale} {input shade : Json}

theorem gives_entry (s : Scale) (input : Json) (i : Nat) :
    Gives s input ((s.range[i]?).getD s.unknown) := by
  cases hentry : s.range[i]? with
  | none => exact .unknown
  | some entry => exact .listed (List.mem_of_getElem? hentry)

theorem mix_gives {start stop : Json} {t : Number} (h : mix start stop t = .ok shade) :
    Gives s input shade := by
  have hblend : ∀ {t}, (Color.blend start stop t).map Color.toJson = .ok shade → Gives s input shade := by
    intro t hmixed
    obtain ⟨c, hc, rfl⟩ := Result.map_eq_ok_iff.mp hmixed
    exact .mixed (Color.blend_inBytes hc)
  simp only [mix, Result.bind_eq_ok_iff] at h
  obtain ⟨first, -, h⟩ := h
  cases first with
  | none => exact hblend h
  | some a =>
    simp only [Result.bind_eq_ok_iff] at h
    obtain ⟨second, -, h⟩ := h
    cases second with
    | none => exact hblend h
    | some b =>
      obtain ⟨m, -, rfl⟩ := Result.map_eq_ok_iff.mp h
      exact .number m

/-- What is found between the stops is mixed from two entries. -/
theorem interpolate?_mixed {stops : List Number} {range : List Json} {x : Number}
    (h : Interpolation.interpolate? mix stops range x = .ok (some shade)) : Gives s input shade := by
  simp only [Interpolation.interpolate?, Result.bind_eq_ok_iff] at h
  obtain ⟨piece, -, h⟩ := h
  split at h
  · simp only [Result.bind_eq_ok_iff, Result.pure_eq_ok_iff, Option.some.injEq] at h
    obtain ⟨t, -, mixed, hmixed, rfl⟩ := h
    exact mix_gives hmixed
  · simp at h

theorem continuousValue_gives (h : s.continuousValue input = .ok shade) : Gives s input shade := by
  simp only [continuousValue, Result.bind_eq_ok_iff] at h
  obtain ⟨proper, -, h⟩ := h
  split at h
  · exact Except.ok.inj h ▸ .unknown
  · split at h
    · exact Except.ok.inj h ▸ .unknown
    · simp only [Result.bind_eq_ok_iff] at h
      obtain ⟨x, -, h⟩ := h
      split at h
      · exact Except.ok.inj h ▸ .unknown
      · simp only [Result.bind_eq_ok_iff] at h
        obtain ⟨stops, -, h⟩ := h
        split at h
        · exact Except.ok.inj h ▸ .unknown
        · simp only [Result.bind_eq_ok_iff, Result.pure_eq_ok_iff] at h
          obtain ⟨found, hfound, rfl⟩ := h
          cases found with
          | none => exact .unknown
          | some shade => exact interpolate?_mixed hfound

theorem bucketValue_gives (h : s.bucketValue input = .ok shade) : Gives s input shade := by
  simp only [bucketValue, Result.bind_eq_ok_iff] at h
  obtain ⟨proper, -, h⟩ := h
  split at h
  · exact Except.ok.inj h ▸ .unknown
  · split at h
    · simp only [Result.bind_eq_ok_iff, Result.pure_eq_ok_iff] at h
      obtain ⟨i, -, rfl⟩ := h
      exact gives_entry s input i
    · exact Except.ok.inj h ▸ .unknown

theorem ordinalValue_gives (s : Scale) (input : Json) : Gives s input (s.ordinalValue input) := by
  unfold ordinalValue
  split
  · exact gives_entry s input _
  · exact .unknown

theorem pointValue_gives (h : s.pointValue input = .ok shade) : Gives s input shade := by
  unfold pointValue at h
  split at h
  · simp only [Result.bind_eq_ok_iff, Result.pure_eq_ok_iff] at h
    obtain ⟨start, -, stop, -, rfl⟩ := h
    exact .number (.float _)
  · exact Except.ok.inj h ▸ .unknown

theorem value_gives (h : s.value input = .ok shade) : Gives s input shade := by
  unfold value at h
  split at h
  · exact continuousValue_gives h
  · exact continuousValue_gives h
  · exact continuousValue_gives h
  · exact bucketValue_gives h
  · exact bucketValue_gives h
  · exact bucketValue_gives h
  · exact Except.ok.inj h ▸ ordinalValue_gives s input
  · exact pointValue_gives h
  · next hkind =>
    rw [← Except.ok.inj h]
    split
    · exact .unknown
    · exact .itself hkind

end MapLayers.Scale

namespace MapLayers.Accessor

open Color (InBytes Overshoots)

/-- What a color accessor can take a color from: the colors of its scale and, if the scale keeps its
values, the value that is read in a row. -/
inductive Source (reader : Reader) (scale : Scale) (features : Bool) (row : Json) : Json → Prop
  | listed {color : Json} (h : color ∈ scale.range) : Source reader scale features row color
  | read {found value : Json} {before after : Option Json} (hkind : scale.kind = .identity)
      (hfound : columns features row = .ok found) (hread : reader.read before found = (.ok value, after)) :
      Source reader scale features row value

variable {reader : Reader} {scale : Scale} {features : Bool} {row result : Json} {info : Option Json}
  {alpha : Int} {kept kept' : Kept}

theorem readScaled_inv {rule : Json → Json → Result Json}
    (h : readScaled reader scale features row kept rule = (.ok result, kept')) :
    ∃ found value shade after, columns features row = .ok found ∧
      reader.read kept.name found = (.ok value, after) ∧
      (scale.keeping kept.breaks).value value = .ok shade ∧ rule value shade = .ok result := by
  unfold readScaled at h
  split at h
  · simp at h
  · next found hfound =>
    split at h
    · simp at h
    · next value after hread =>
      obtain ⟨shade, hshade, hrule⟩ := Result.method_bind_eq_ok_iff.mp (Prod.mk.inj h).1
      exact ⟨found, value, shade, after, hfound, hread, hshade, hrule⟩

theorem colorOfShade_inv {value shade : Json} (h : colorOfShade alpha value shade = .ok result) :
    ∃ c, Color.ofJson shade = .ok c ∧
      result = Color.toJson ⟨c.red, c.green, c.blue, if value.isNull then 0 else alpha⟩ := by
  simp only [colorOfShade, Result.bind_eq_ok_iff, Result.pure_eq_ok_iff] at h
  obtain ⟨c, hc, rfl⟩ := h
  exact ⟨c, hc, rfl⟩

theorem colorScale_unknown {name kind colorRange data : Json}
    (h : colorScale name kind colorRange data = .ok scale) : scale.unknown = unknownColor := by
  simp only [colorScale, Result.bind_eq_ok_iff] at h
  obtain ⟨scaleKind, -, h⟩ := h
  split at h
  · exact Except.ok.inj h ▸ rfl
  · simp only [Result.bind_eq_ok_iff] at h
    obtain ⟨mapped, -, h⟩ := h
    split at h <;> simp only [Result.bind_eq_ok_iff, Result.pure_eq_ok_iff] at h
    · obtain ⟨domain, -, colors, -, _, rfl, rfl⟩ := h
      rfl
    · obtain ⟨domain, -, listed, -, h⟩ := h
      split at h <;> simp only [Result.bind_eq_ok_iff, Result.pure_eq_ok_iff] at h
      · obtain ⟨colors, -, _, rfl, rfl⟩ := h
        rfl
      · obtain ⟨_, rfl, _, rfl, rfl⟩ := h
        rfl

theorem forColor_inv {channel : Channel} {spec : ColorSpec} {data : Json} {a : Accessor}
    (h : forColor channel spec data = .ok a) :
    ∃ name colorColumn scale alpha reader, spec.field.field "name" = .ok name ∧
      spec.field.lookup "colorColumn" = .ok colorColumn ∧
      colorScale (colorColumn.orElse name) (spec.scale.orElse defaultColorScale) spec.colorRange data =
        .ok scale ∧
      Color.alphaOfOpacity spec.opacity = .ok alpha ∧
      a = color reader scale alpha (Row.isFeatureData data) := by
  simp only [forColor, Result.bind_eq_ok_iff, Result.pure_eq_ok_iff] at h
  obtain ⟨name, hname, colorColumn, hcolumn, scale, hscale, alpha, halpha, reader, -, rfl⟩ := h
  exact ⟨name, colorColumn, scale, alpha, reader, hname, hcolumn, hscale, halpha, rfl⟩

/-- A call of a color accessor gives a byte color unless a source overshoots. -/
theorem color_call_inBytes (halpha : Color.IsByte alpha) (hunknown : scale.unknown = unknownColor)
    (hsources : ∀ color, Source reader scale features row color → ¬Overshoots color)
    (h : (color reader scale alpha features).callWith row info kept = (.ok result, kept')) :
    ∃ c : Color, result = c.toJson ∧ c.InBytes := by
  obtain ⟨found, value, shade, after, hfound, hread, hshade, hrule⟩ := readScaled_inv h
  obtain ⟨c, hc, rfl⟩ := colorOfShade_inv hrule
  have hbytes : c.InBytes := by
    cases Scale.value_gives hshade with
    | unknown =>
      have hcolor : Color.ofJson unknownColor = .ok c := hunknown ▸ hc
      rw [← Except.ok.inj (ofJson_unknownColor.symm.trans hcolor)]
      constructor <;> decide
    | listed hlisted => exact (Color.inBytes_iff hc).mpr (hsources shade (.listed hlisted))
    | mixed hmixed => exact Except.ok.inj (((Color.ofJson_toJson_iff _).mpr hmixed).symm.trans hc) ▸ hmixed
    | number n => cases n <;> simp [Json.ofNumber, Color.ofJson] at hc
    | itself hkind =>
      exact (Color.inBytes_iff hc).mpr (hsources value (.read hkind hfound hread))
  refine ⟨_, rfl, hbytes.red, hbytes.green, hbytes.blue, ?_⟩
  dsimp only
  split
  · decide
  · exact halpha

end MapLayers.Accessor
