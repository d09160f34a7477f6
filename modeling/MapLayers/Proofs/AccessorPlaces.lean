import MapLayers.Proofs.BaseProps
import MapLayers.Proofs.ChannelSteps
import MapLayers.Proofs.PropPaths

/-!
# Where accessors are found

An accessor stands under the prop that its channel is resolved to. Icons take their size and their color
from other props, and labels their room, so every path to an accessor leads back to the prop that the
accessor was resolved under.
-/

namespace MapLayers

namespace Channels

open Props (Holds)

/-- The path at which the accessor at the end of a path was resolved: icons take their size from the
radius and their color from the filling, labels keep the radius as their room. -/
def resolvedPath : List String → List String
  | ["getIconSize"] => ["getPointRadius"]
  | ["_subLayerProps", "points-text", "getRadius"] => ["getPointRadius"]
  | ["getIconColor"] => ["getFillColor"]
  | path => path

/-- The props that take accessors over. -/
def borrowers : List String := ["getIconSize", "getIconColor", "_subLayerProps"]

/-- The props that accessors are taken from. -/
def lenders : List String := ["getPointRadius", "getFillColor"]

/-- The paths that lead back to one accessor under several props. -/
def aliases : List (List (List String)) :=
  [[["getPointRadius"], ["getIconSize"], ["_subLayerProps", "points-text", "getRadius"]],
    [["getFillColor"], ["getIconColor"]]]

theorem resolvedPath_eq_iff {p q : List String} : resolvedPath p = resolvedPath q ↔
    p = q ∨ ∃ paths ∈ aliases, p ∈ paths ∧ q ∈ paths := by
  simp only [aliases, List.mem_cons, List.not_mem_nil, or_false, exists_eq_or_imp, exists_eq_left]
  constructor
  · intro h
    unfold resolvedPath at h
    split at h <;> split at h <;> grind
  · rintro (rfl | ⟨hp, hq⟩ | ⟨hp, hq⟩)
    · rfl
    · rcases hp with rfl | rfl | rfl <;> rcases hq with rfl | rfl | rfl <;> rfl
    · rcases hp with rfl | rfl <;> rcases hq with rfl | rfl <;> rfl

theorem resolvedPath_of_not_borrower {key : String} (h : key ∉ borrowers) (rest : List String) :
    resolvedPath (key :: rest) = key :: rest := by
  simp only [borrowers, List.mem_cons, List.not_mem_nil, or_false, not_or] at h
  obtain ⟨hsize, hcolor, hlayers⟩ := h
  unfold resolvedPath
  split <;> simp_all

theorem resolvedPath_cases (key : String) (rest : List String) :
    resolvedPath (key :: rest) = key :: rest ∨
    (key ∈ borrowers ∧ ∃ lender ∈ lenders, resolvedPath (key :: rest) = [lender]) := by
  unfold resolvedPath
  split <;> simp_all [borrowers, lenders]

/-- The accessor of a channel is resolved under the prop of the channel. -/
def AtHome (path : List String) (a : Accessor) : Prop :=
  ∀ channel, a.channel? = some channel → resolvedPath path = [channel.home]

/-- Every path to an accessor leads back to where the accessor was resolved, and what is lent is an
accessor itself. -/
structure Placed (props : Props) : Prop where
  back : ∀ path a, Holds props path a → AtHome path a ∧ Holds props (resolvedPath path) a
  direct : ∀ lender ∈ lenders, ∀ rest a, Holds props (lender :: rest) a → rest = []

/-- Nothing has been taken over yet. -/
def Unborrowed (props : Props) : Prop := ∀ key ∈ borrowers, Entries.get? props key = none

variable {c : Context} {props next : Props} {key : String} {value : PropValue} {a : Accessor}

theorem holds_put_self {rest : List String} :
    Holds (put props key value) (key :: rest) a ↔ value.at? rest = some (.accessor a) := by
  rw [Props.holds_cons, get?_put_self]
  simp

theorem holds_put_of_ne {other : String} {rest : List String} (h : key ≠ other) :
    Holds (put props key value) (other :: rest) a ↔ Holds props (other :: rest) a := by
  rw [Props.holds_cons, Props.holds_cons, get?_put_of_ne _ _ h]

/-- A prop can be set if it lends nothing, or if nothing has been taken over yet. Every accessor in the
new value has to be at home, and to be taken over from where it is if the path leads back there. -/
theorem Placed.set (h : Placed props) (hkey : key ∉ lenders ∨ Unborrowed props)
    (hdirect : key ∈ lenders → ∀ rest a, value.at? rest = some (.accessor a) → rest = [])
    (hvalue : ∀ rest a, value.at? rest = some (.accessor a) → AtHome (key :: rest) a ∧
      (resolvedPath (key :: rest) = key :: rest ∨
        (key ∉ lenders ∧ Holds props (resolvedPath (key :: rest)) a))) :
    Placed (put props key value) := by
  constructor
  case back =>
    intro path a hfound
    cases path with
    | nil => exact absurd hfound Props.not_holds_nil
    | cons other rest =>
      by_cases hother : key = other
      · subst other
        rw [holds_put_self] at hfound
        obtain ⟨hhome, hsame | ⟨hlends, htaken⟩⟩ := hvalue rest a hfound
        · rw [hsame]
          exact ⟨hhome, holds_put_self.mpr hfound⟩
        · refine ⟨hhome, ?_⟩
          rcases resolvedPath_cases key rest with hsame | ⟨-, lender, hlender, hback⟩
          · rw [hsame]
            exact holds_put_self.mpr hfound
          · have hne : key ≠ lender := fun heq => hlends (heq ▸ hlender)
            rw [hback] at htaken ⊢
            exact (holds_put_of_ne hne).mpr htaken
      · rw [holds_put_of_ne hother] at hfound
        obtain ⟨hhome, hresolved⟩ := h.back _ a hfound
        refine ⟨hhome, ?_⟩
        rcases resolvedPath_cases other rest with hsame | ⟨hborrower, lender, hlender, hback⟩
        · rw [hsame]
          exact (holds_put_of_ne hother).mpr hfound
        · have hne : key ≠ lender := by
            rintro rfl
            rcases hkey with hlends | hfree
            · exact hlends hlender
            · obtain ⟨value, hvalue, -⟩ := Props.holds_cons.mp hfound
              simp [hfree other hborrower] at hvalue
          rw [hback] at hresolved ⊢
          exact (holds_put_of_ne hne).mpr hresolved
  case direct =>
    intro lender hlender rest a hfound
    by_cases hother : key = lender
    · subst lender
      exact hdirect hlender rest a (holds_put_self.mp hfound)
    · exact h.direct lender hlender rest a ((holds_put_of_ne hother).mp hfound)

theorem Placed.put_plain (h : Placed props) (hkey : key ∉ lenders ∨ Unborrowed props)
    (hvalue : value.Plain) : Placed (put props key value) :=
  h.set hkey (fun _ rest a hfound => absurd hfound (hvalue rest a))
    fun rest a hfound => absurd hfound (hvalue rest a)

theorem Placed.put_accessor (h : Placed props) (hkey : key ∉ lenders ∨ Unborrowed props)
    (hborrows : key ∉ borrowers)
    (hhome : ∀ channel, a.channel? = some channel → key = channel.home) :
    Placed (put props key (.accessor a)) := by
  refine h.set hkey (fun _ rest b hfound => (PropValue.at?_accessor.mp hfound).1)
    fun rest b hfound => ?_
  obtain ⟨rfl, rfl⟩ := PropValue.at?_accessor.mp hfound
  rw [AtHome, resolvedPath_of_not_borrower hborrows]
  exact ⟨fun channel hchannel => by rw [hhome channel hchannel], .inl rfl⟩

/-- Whatever stands under a lender can be taken over from there. -/
theorem Placed.take (h : Placed props) {lender : String} (hlends : lender ∈ lenders)
    (hvalue : Entries.get? props lender = some value) {path rest : List String}
    (hpath : rest = [] → resolvedPath path = [lender])
    (hfound : value.at? rest = some (.accessor a)) :
    AtHome path a ∧ Holds props (resolvedPath path) a := by
  have hholds : Holds props (lender :: rest) a := Props.holds_cons.mpr ⟨value, hvalue, hfound⟩
  obtain rfl := h.direct lender hlends rest a hholds
  have hborrows : lender ∉ borrowers := by
    simp only [lenders, List.mem_cons, List.not_mem_nil, or_false] at hlends
    rcases hlends with rfl | rfl <;> decide
  have hhome := (h.back _ a hholds).1
  rw [AtHome, resolvedPath_of_not_borrower hborrows] at hhome
  rw [AtHome, hpath rfl]
  exact ⟨hhome, hholds⟩

theorem fontSettings_plain : (PropValue.record [(.field "sdf", .bool true)]).Plain :=
  .record (by simp [PropValue.Plain.bool])

/-- How the props stand before the markers and the labels. -/
structure Resolving (props : Props) : Prop where
  placed : Placed props
  unborrowed : Unborrowed props

namespace Resolving

theorem nil : Resolving [] := by
  have hempty : ∀ path a, ¬Holds [] path a := by
    intro path a h
    cases path <;> simp [Holds, PropValue.at?, PropValue.ofProps, PropValue.fields] at h
  exact ⟨⟨fun path a h => absurd h (hempty path a), fun _ _ _ _ h => absurd h (hempty _ _)⟩,
    fun _ _ => rfl⟩

theorem unborrowed_put (h : Resolving props) (hkey : key ∉ borrowers) :
    Unborrowed (put props key value) := by
  intro other hother
  have hne : key ≠ other := fun heq => hkey (heq ▸ hother)
  rw [get?_put_of_ne props value hne]
  exact h.unborrowed other hother

theorem put_plain (h : Resolving props) (hkey : key ∉ borrowers) (hvalue : value.Plain) :
    Resolving (put props key value) :=
  ⟨h.placed.put_plain (.inr h.unborrowed) hvalue, h.unborrowed_put hkey⟩

theorem put_accessor (h : Resolving props) (hkey : key ∉ borrowers)
    (hhome : ∀ channel, a.channel? = some channel → key = channel.home) :
    Resolving (put props key (.accessor a)) :=
  ⟨h.placed.put_accessor (.inr h.unborrowed) hkey hhome, h.unborrowed_put hkey⟩

theorem put_free (h : Resolving props) (hkey : key ∉ borrowers) (hfree : a.channel? = none) :
    Resolving (put props key (.accessor a)) :=
  h.put_accessor hkey fun channel hchannel => by simp [hfree] at hchannel

theorem of_resolves {channel : Channel} (h : Resolving props)
    (hnext : Resolves channel props next) : Resolving next := by
  obtain rfl | ⟨a, ha, rfl⟩ := hnext
  · exact h
  · refine h.put_accessor (by cases channel <;> decide) fun other hother => ?_
    rw [ha, Option.some.injEq] at hother
    rw [hother]

theorem withTextFace (h : Resolving props) : Resolving (withTextFace props) := by
  exact (((h.put_plain (by decide) (.text _)).put_plain (by decide) (.text _)).put_plain (by decide)
    fontSettings_plain).put_plain (by decide) (.int _)

theorem aggregatedColor (h : Resolving props)
    (hrun : aggregatedColor c props = .ok next) : Resolving next := by
  have hscale : Resolving (putJson props "colorScaleType" (c.channel "colorScale")) :=
    h.put_plain (by decide) (.ofJson _)
  obtain rfl | ⟨key, a, hkey, hfree, rfl⟩ := aggregatedColor_inv hrun
  · exact hscale
  · refine hscale.put_free ?_ hfree
    rcases hkey with rfl | rfl <;> decide

theorem color (h : Resolving props) (hrun : color c props = .ok next) : Resolving next := by
  unfold Channels.color at hrun
  split at hrun
  · exact h.aggregatedColor hrun
  · exact h.of_resolves (fillColor_inv hrun)

theorem pointAltitude (h : Resolving props) (hrun : pointAltitude c props = .ok next) :
    Resolving next := by
  obtain rfl | ⟨column, rfl⟩ := pointAltitude_inv hrun
  · exact h
  · exact h.put_free (by decide) rfl

theorem clusterLabelColors {label : Json} (h : Resolving props)
    (hrun : clusterLabelColors label props = .ok next) : Resolving next := by
  obtain ⟨color, -, hnext⟩ := clusterLabelColors_inv hrun
  have hcolored : Resolving
      (if color.isNull then props else putJson props "getTextColor" color) := by
    split
    · exact h
    · exact h.put_plain (by decide) (.ofJson _)
  obtain rfl | ⟨outline, rfl⟩ := hnext
  · exact hcolored
  · exact hcolored.put_plain (by decide) (.ofJson _)

theorem clusters (h : Resolving props) (hrun : clusters c props = .ok next) : Resolving next := by
  obtain ⟨hasText, level, radii, column, label, colored, -, -, hcolored, rfl⟩ := clusters_inv hrun
  have hstart : Resolving (clusterStart props hasText level radii column) := by
    refine put_free (withTextFace ?_) (by decide) rfl
    exact put_free (put_free (put_plain (put_plain h (by decide) (.text _)) (by decide) (.ofJson _))
      (by decide) rfl) (by decide) rfl
  exact (((hstart.clusterLabelColors hcolored).put_plain (by decide) (.int _)).put_plain (by decide)
    (.text _)).put_free (by decide) rfl

theorem typeSpecific (h : Resolving props) (hrun : typeSpecific c props = .ok next) :
    Resolving next := by
  unfold Channels.typeSpecific at hrun
  split at hrun
  · exact h.pointAltitude hrun
  · split at hrun
    · exact h.clusters hrun
    · exact Except.ok.inj hrun ▸ h

end Resolving

theorem iconLayerProps_plain (size : Int) : (iconLayerProps size).Plain := by
  have himage : (PropValue.record [(.field "type", .text "imagebitmap")]).Plain :=
    .record (by simp [PropValue.Plain.text])
  have hbitmap : (PropValue.record [(.field "resizeWidth", .int size),
      (.field "resizeHeight", .int size), (.field "resizeQuality", .text "high")]).Plain :=
    .record (by simp [PropValue.Plain.text, PropValue.Plain.int])
  have hoptions : (PropValue.record [(.field "image",
      .record [(.field "type", .text "imagebitmap")]), (.field "imagebitmap",
      .record [(.field "resizeWidth", .int size), (.field "resizeHeight", .int size),
        (.field "resizeQuality", .text "high")])]).Plain :=
    .record (by simp [himage, hbitmap])
  exact .record (by simp [hoptions])

theorem get?_of_present? (h : present? props key = some value) :
    Entries.get? props key = some value := by
  unfold present? at h
  split at h
  · next found hfound =>
    split at h
    · simp at h
    · exact hfound.trans h
  · simp at h

/-- What a second label adds is plain, its text apart, which keeps nothing. -/
theorem secondaryLabel_get? {label : Json} {second : List (PropKey × PropValue)}
    (hsecond : secondaryLabel c label = .ok second)
    (h : Entries.get? second (.field key) = some value) :
    value.Plain ∨ (key = "getSecondaryText" ∧ ∃ text, value = .accessor text ∧
      text.channel? = none) := by
  obtain rfl | ⟨text, color, size, outline, hfree, rfl⟩ := secondaryLabel_inv hsecond
  · simp at h
  · simp only [Entries.get?_cons] at h
    split at h
    · next hkey =>
      have hname : "getSecondaryText" = key := by
        simpa [BEq.beq, PropKey.same] using hkey
      exact .inr ⟨hname.symm, text, (Option.some.inj h).symm, hfree⟩
    · refine .inl ?_
      split at h
      · exact Option.some.inj h ▸ .ofJson color
      · split at h
        · exact Option.some.inj h ▸ .ofJson size
        · split at h
          · exact Option.some.inj h ▸ .ofJson outline
          · simp at h

/-- The parts of the sub-layer of texts that are accessors: the radius that it keeps as room, and the
second text. -/
theorem textLayerProps_at? {room : PropKey × PropValue} {label : Json}
    {second : List (PropKey × PropValue)} (hsecond : secondaryLabel c label = .ok second)
    {path : List String} (h : (textLayerProps c room second).at? path = some (.accessor a)) :
    (∃ key rest, path = key :: rest ∧ (room.1 == .field key) = true ∧
      room.2.at? rest = some (.accessor a)) ∨
    (path = ["getSecondaryText"] ∧ a.channel? = none) := by
  cases path with
  | nil => simp [textLayerProps, PropValue.at?] at h
  | cons key rest =>
    obtain ⟨roomKey, roomValue⟩ := room
    rw [PropValue.at?_cons, Option.bind_eq_some_iff] at h
    obtain ⟨inner, hinner, h⟩ := h
    simp only [textLayerProps, PropValue.fields, List.cons_append, List.nil_append,
      Entries.get?_cons] at hinner
    split at hinner
    · cases hinner
      exact absurd h (PropValue.Plain.bool true rest a)
    · split at hinner
      · cases hinner
        exact absurd h (PropValue.Plain.text _ rest a)
      · split at hinner
        · next hroom =>
          cases hinner
          exact .inl ⟨key, rest, rfl, hroom, h⟩
        · obtain hplain | ⟨rfl, text, rfl, hfree⟩ := secondaryLabel_get? hsecond hinner
          · exact absurd h (hplain rest a)
          · obtain ⟨rfl, rfl⟩ := PropValue.at?_accessor.mp h
            exact .inr ⟨rfl, hfree⟩

namespace Placed

theorem put_free (h : Placed props) (hlends : key ∉ lenders) (hborrows : key ∉ borrowers)
    (hfree : a.channel? = none) : Placed (put props key (.accessor a)) :=
  h.put_accessor (.inl hlends) hborrows fun channel hchannel => by simp [hfree] at hchannel

theorem putText (h : Placed props) (hlends : key ∉ lenders) (text : String) :
    Placed (putText props key text) :=
  h.put_plain (.inl hlends) (.text text)

theorem withTextFace (h : Placed props) : Placed (withTextFace props) := by
  exact (((h.putText (by decide) _).putText (by decide) _).put_plain (.inl (by decide))
    fontSettings_plain).put_plain (.inl (by decide)) (.int _)

theorem put_taken (h : Placed props) (lender : String) (hlends : key ∉ lenders)
    (hlender : lender ∈ lenders) (hpath : resolvedPath [key] = [lender])
    (hvalue : Entries.get? props lender = some value) : Placed (put props key value) := by
  refine h.set (.inl hlends) (fun hkey => absurd hkey hlends) fun rest a hfound => ?_
  have hback : rest = [] → resolvedPath (key :: rest) = [lender] := fun hrest => hrest ▸ hpath
  obtain ⟨hhome, hholds⟩ := h.take hlender hvalue hback hfound
  exact ⟨hhome, .inr ⟨hlends, hholds⟩⟩

theorem iconAngle (h : Placed props) (hrun : iconAngle c props = .ok next) : Placed next := by
  obtain rfl | ⟨a, ha, rfl⟩ := iconAngle_inv hrun
  · exact h
  · refine h.put_accessor (.inl (by decide)) (by decide) fun channel hchannel => ?_
    rw [Accessor.channel?, ha, Option.some.injEq] at hchannel
    exact hchannel ▸ rfl

theorem iconStart (h : Placed props) {icon : Accessor} (hfree : icon.channel? = none) (size : Int) :
    Placed (iconStart props icon size) := by
  have hlayers : (PropValue.record [(.field "points-icon", iconLayerProps size)]).Plain :=
    .record (by simp [iconLayerProps_plain])
  exact ((h.putText (by decide) _).put_free (by decide) (by decide) hfree).put_plain
    (.inl (by decide)) hlayers

theorem withIconColor (h : Placed props) (masked : Bool) :
    Placed (withIconColor c masked props) := by
  unfold Channels.withIconColor
  split
  · next filling hfilling =>
    split
    · unfold iconColor? at hfilling
      split at hfilling
      · next value hvalue =>
        split at hfilling
        · simp at hfilling
        · rw [Option.some.injEq] at hfilling
          subst hfilling
          exact h.put_taken "getFillColor" (by decide) (by decide) rfl hvalue
      · dsimp only at hfilling
        split at hfilling
        · simp at hfilling
        · rw [Option.some.injEq] at hfilling
          exact hfilling ▸ h.put_plain (.inl (by decide)) (.ofJson _)
    · exact h
  · exact h

theorem withIconSize (h : Placed props) : Placed (withIconSize props) := by
  unfold Channels.withIconSize
  split
  · next radius hradius =>
    exact h.put_taken "getPointRadius" (by decide) (by decide) rfl (get?_of_present? hradius)
  · exact h

theorem markers (h : Placed props) (hrun : markers c props = .ok next) : Placed next := by
  obtain ⟨wanted, -, ⟨-, hicons⟩ | ⟨-, rfl⟩⟩ := markers_inv hrun
  · obtain ⟨size, filled, icon, hfree, -, hangle⟩ := icons_inv hicons
    exact ((h.iconStart hfree size).withIconColor filled.truthy).withIconSize.iconAngle hangle
  · unfold withPlainMarks
    split
    · exact h.putText (by decide) _
    · exact h

theorem labelSettings {label : Json} {settings : List (String × String)} (h : Placed props)
    (hsettings : ∀ entry ∈ settings, entry.2 ∉ lenders)
    (hrun : labelSettings label settings props = .ok next) : Placed next := by
  induction settings generalizing props with
  | nil => exact Except.ok.inj hrun ▸ h
  | cons first rest ih =>
    rw [Channels.labelSettings, Result.bind_eq_ok_iff] at hrun
    obtain ⟨value, -, hrun⟩ := hrun
    refine ih ?_ (fun entry hentry => hsettings entry (List.mem_cons_of_mem _ hentry)) hrun
    split
    · exact h
    · exact h.put_plain (.inl (hsettings first (by simp))) (.ofJson _)

/-- The sub-layer of texts takes the radius over as its room, beside what the sub-layers had. -/
theorem textLayer {room : PropKey × PropValue} {label : Json}
    {second : List (PropKey × PropValue)} (h : Placed props)
    (hroom : labelRoom c props = .ok room) (hsecond : secondaryLabel c label = .ok second) :
    Placed (put props "_subLayerProps" (.record
      (Entries.set (subLayers props) (.field "points-text") (textLayerProps c room second)))) := by
  refine h.set (.inl (by decide)) (fun hlends => absurd hlends (by decide)) fun path a hfound => ?_
  cases path with
  | nil => simp [PropValue.at?] at hfound
  | cons key rest =>
    rw [PropValue.at?_cons, Option.bind_eq_some_iff] at hfound
    obtain ⟨inner, hinner, hfound⟩ := hfound
    simp only [PropValue.fields, Entries.get?_set] at hinner
    split at hinner
    · next hkey =>
      have hname : "points-text" = key := by simpa [BEq.beq, PropKey.same] using hkey
      subst hname
      cases hinner
      obtain ⟨key, rest, rfl, hkey, hvalue⟩ | ⟨rfl, hfree⟩ := textLayerProps_at? hsecond hfound
      · obtain ⟨radius, hradius, rfl⟩ | ⟨-, scale, rfl⟩ := labelRoom_inv hroom
        · have hname : "getRadius" = key := by simpa [BEq.beq, PropKey.same] using hkey
          subst hname
          have hback : rest = [] →
              resolvedPath ("_subLayerProps" :: "points-text" :: "getRadius" :: rest) =
                ["getPointRadius"] := by
            rintro rfl
            rfl
          obtain ⟨hhome, hholds⟩ := h.take (by decide) (get?_of_present? hradius) hback hvalue
          exact ⟨hhome, .inr ⟨by decide, hholds⟩⟩
        · exact absurd hvalue (PropValue.Plain.ofJson scale rest a)
      · exact ⟨fun channel hchannel => by simp [hfree] at hchannel, .inl rfl⟩
    · next hkey =>
      have hname : key ≠ "points-text" := by
        rintro rfl
        exact hkey rfl
      have hholds : Holds props ("_subLayerProps" :: key :: rest) a := by
        unfold subLayers at hinner
        split at hinner
        · next value hvalue =>
          refine Props.holds_cons.mpr ⟨value, hvalue, ?_⟩
          rw [PropValue.at?_cons, hinner]
          exact hfound
        · simp at hinner
      have hsame : resolvedPath ("_subLayerProps" :: key :: rest) =
          "_subLayerProps" :: key :: rest := by
        unfold resolvedPath
        split <;> simp_all
      exact ⟨(h.back _ a hholds).1, .inl hsame⟩

theorem labels (h : Placed props) (hrun : labels c props = .ok next) : Placed next := by
  obtain rfl | ⟨main, secondary, hmain⟩ := labels_inv hrun
  · exact h
  · obtain ⟨set, text, room, second, hset, hfree, hroom, hsecond, rfl⟩ := mainLabel_inv hmain
    have hstart : Placed (labelStart set text) :=
      ((((h.labelSettings (by decide) hset).put_free (by decide) (by decide) hfree).putText
        (by decide) _).withTextFace).put_plain (.inl (by decide)) (.int _)
    exact hstart.textLayer hroom hsecond

end Placed

/-- Once the channels are resolved, every path to an accessor leads back to where it was resolved. -/
theorem resolve_placed (h : resolve c = .ok props) : Placed props := by
  obtain ⟨colored, typed, sized, stroked, raised, weighted, marked, hcolored, htyped, hsized,
    hstroked, hraised, hweighted, hmarked, hlabelled⟩ := resolve_inv h
  have hbefore : Resolving weighted :=
    ((((((Resolving.nil.color hcolored).typeSpecific htyped).of_resolves
      (pointRadius_inv hsized)).of_resolves (strokeColor_inv hstroked)).of_resolves
      (height_inv hraised)).of_resolves (weight_inv hweighted))
  exact (hbefore.placed.markers hmarked).labels hlabelled

end Channels

open Channels (AtHome Placed resolvedPath resolvedPath_of_not_borrower)
open Props (Holds)

namespace LayerType

variable {type : LayerType} {config : Json.Fields} {dataset : Dataset} {first : Props}

/-- The accessors among the first props read a column and keep nothing. -/
theorem firstProps_holds (h : type.firstProps config dataset = .ok first) {path : List String}
    {a : Accessor} (hholds : Holds first path a) :
    a.channel? = none ∧ ∃ key ∉ Channels.borrowers, path = [key] := by
  cases path with
  | nil => exact absurd hholds Props.not_holds_nil
  | cons key rest =>
    obtain ⟨value, hvalue, hfound⟩ := Props.holds_cons.mp hholds
    have hshared : Entries.get? sharedProps key ≠ some value := by
      intro hdefault
      obtain ⟨default, hmem, rfl⟩ := Entries.mem_of_get? hdefault
      simp only [sharedProps, List.mem_cons, List.not_mem_nil, or_false] at hmem
      rcases hmem with rfl | rfl | rfl | rfl | rfl
      · exact PropValue.Plain.int _ rest a hfound
      · exact PropValue.Plain.text _ rest a hfound
      · exact PropValue.Plain.text _ rest a hfound
      · exact PropValue.Plain.bool _ rest a hfound
      · exact PropValue.Plain.bool _ rest a hfound
    simp only [firstProps, Result.bind_eq_ok_iff, Result.pure_eq_ok_iff] at h
    obtain ⟨own, hown, rfl⟩ := h
    unfold indexProps at hown
    split at hown
    · cases hown
      exact absurd hvalue hshared
    · next prop column fallback hindex =>
      simp only [Result.bind_eq_ok_iff, Result.pure_eq_ok_iff] at hown
      obtain ⟨name, -, rfl⟩ := hown
      rw [Entries.overlay_cons, Entries.overlay_nil, Entries.get?_set] at hvalue
      split at hvalue
      · next hprop =>
        cases hvalue
        obtain ⟨rfl, rfl⟩ := PropValue.at?_accessor.mp hfound
        refine ⟨rfl, key, ?_, rfl⟩
        have hindexed : prop = "getHexagon" ∨ prop = "getQuadbin" := by
          cases type <;> simp_all [indexProp]
        rw [← beq_iff_eq.mp hprop]
        rcases hindexed with rfl | rfl <;> decide
      · exact absurd hvalue hshared

end LayerType

namespace Assembly

variable {a : Assembly} {channels : Props} {key : String} {value : PropValue}

/-- Only the last two producers hide what the channels have. -/
theorem lookup_of_channels (hvalue : Entries.get? channels key = some value)
    (hkey : key ∈ Channels.channelProps) : a.lookup channels key = some value := by
  have hloading : key ≠ "loadOptions" := by
    rintro rfl
    exact absurd hkey (by decide)
  have hparameters : key ≠ "parameters" := by
    rintro rfl
    exact absurd hkey (by decide)
  have hnone : Entries.get? (Blending.loadOptions a.surroundings.token) key = none := by
    simp [Blending.loadOptions, Entries.get?_cons, Ne.symm hloading]
  rw [lookup, plain_get?, hnone, plain_get?, Blending.parametersField_get? _ hparameters, hvalue]
  rfl

/-- All producers but the channels and the first props are plain. -/
theorem lookup_cases (h : a.lookup channels key = some value) :
    Entries.get? channels key = some value ∨ Entries.get? a.first key = some value ∨
      value.Plain := by
  have hplain : ∀ fields, Entries.get? (plain fields).props key = some value → value.Plain := by
    intro fields hfound
    rw [plain_get?, Option.map_eq_some_iff] at hfound
    obtain ⟨json, -, rfl⟩ := hfound
    exact .ofJson json
  simp only [lookup, Option.or_eq_some_iff] at h
  rcases h with h | ⟨-, h | ⟨-, h | ⟨-, h | ⟨-, h | ⟨-, h | ⟨-, h⟩⟩⟩⟩⟩⟩
  · exact .inr (.inr (hplain _ h))
  · exact .inr (.inr (hplain _ h))
  · exact .inl h
  · exact .inr (.inr (hplain _ h))
  · exact .inr (.inr (hplain _ h))
  · exact .inr (.inl h)
  · exact .inr (.inr (hplain _ h))

end Assembly

/-- In a compiled layer, every path to an accessor leads back to where the accessor was resolved. -/
theorem Origin.placed {token : Json} {fields : Json.Fields} {entry : Json} {a : Assembly}
    {descriptor : LayerDescriptor} (h : Origin token fields entry a descriptor) :
    Placed descriptor.props := by
  obtain ⟨channels, hchannels, hprops⟩ := h.get?
  obtain ⟨type, markers, -, -, hfirst, -⟩ := h.style
  have hresolved := Channels.resolve_placed hchannels
  have hkept : ∀ path b, Holds channels path b → Holds descriptor.props path b := by
    intro path b hholds
    cases path with
    | nil => exact absurd hholds Props.not_holds_nil
    | cons key rest =>
      obtain ⟨value, hvalue, hfound⟩ := Props.holds_cons.mp hholds
      have hkey : key ∈ Channels.channelProps :=
        ((Channels.resolve_reaches hchannels).admits_of_get? hvalue).known
      refine Props.holds_cons.mpr ⟨value, ?_, hfound⟩
      rw [hprops, Assembly.lookup_of_channels hvalue hkey]
  have hcases : ∀ key rest b, Holds descriptor.props (key :: rest) b →
      Holds channels (key :: rest) b ∨ Holds a.first (key :: rest) b := by
    intro key rest b hholds
    obtain ⟨value, hvalue, hfound⟩ := Props.holds_cons.mp hholds
    rw [hprops] at hvalue
    obtain hvalue | hvalue | hplain := Assembly.lookup_cases hvalue
    · exact .inl (Props.holds_cons.mpr ⟨value, hvalue, hfound⟩)
    · exact .inr (Props.holds_cons.mpr ⟨value, hvalue, hfound⟩)
    · exact absurd hfound (hplain rest b)
  constructor
  case back =>
    intro path b hholds
    cases path with
    | nil => exact absurd hholds Props.not_holds_nil
    | cons key rest =>
      obtain hchannel | hfirsts := hcases key rest b hholds
      · obtain ⟨hhome, hback⟩ := hresolved.back _ b hchannel
        exact ⟨hhome, hkept _ b hback⟩
      · obtain ⟨hfree, other, hborrows, hpath⟩ := LayerType.firstProps_holds hfirst hfirsts
        rw [hpath] at hholds ⊢
        rw [resolvedPath_of_not_borrower hborrows]
        exact ⟨fun channel hchannel => by simp [hfree] at hchannel, hholds⟩
  case direct =>
    intro lender hlender rest b hholds
    obtain hchannel | hfirsts := hcases lender rest b hholds
    · exact hresolved.direct lender hlender rest b hchannel
    · obtain ⟨-, other, -, hpath⟩ := LayerType.firstProps_holds hfirst hfirsts
      exact (List.cons.inj hpath).2

end MapLayers
