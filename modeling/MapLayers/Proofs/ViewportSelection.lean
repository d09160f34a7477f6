import MapLayers.Geometry.Selection
import MapLayers.Proofs.Boxes
import MapLayers.Proofs.Results
import MapLayers.Viewport

/-!
# Selection by viewports

Without an id property a selection is a filter: the features that have a geometry, in their order, of which
those inside the area are kept. So a viewport selects what a smaller one does wherever its area meets what
the smaller area meets, as boxes in the plane do. A viewport of the whole world has no filter though, and
without a filter nothing is selected.
-/

namespace MapLayers

/-- A feature that can be selected, by its geometry and its properties. -/
structure Selection.Candidate (γ : Type) where
  geometry : γ
  properties : Json.Fields

namespace Selector

open Selection (Candidate)

variable {γ : Type} (selector : Selector γ)

/-- The candidate in a feature; a feature without a geometry is none. -/
def candidate? (feature : Json) : Result (Option (Candidate γ)) := do
  let described ← feature.lookup "geometry"
  if !described.truthy then return none
  let authored ← feature.lookup "properties"
  let properties ← if authored.truthy then authored.asFields else pure []
  let geometry ← selector.read described
  return some ⟨geometry, properties⟩

/-- The candidates of a collection. -/
def candidates (collection : Json) : Result (List (Candidate γ)) := do
  let authored ← collection.lookup "features"
  let features ← if authored.truthy then authored.elements else pure []
  return (← features.mapM selector.candidate?).filterMap id

/-- The selection after the candidate of one more feature. -/
def take (inside : γ → Bool) (s : Selection) : Option (Candidate γ) → Selection
  | some c => if inside c.geometry then s.add none c.properties else s
  | none => s

variable {inside : γ → Bool}

theorem add_if_inside (s : Selection) (described : Json) (properties : Json.Fields) :
    (do
      let geometry ← selector.read described
      if inside geometry then return s.add none properties else return s : Result Selection) =
    (do return some ⟨← selector.read described, properties⟩ : Result _).map (take inside s) := by
  cases selector.read described with
  | error fault => rfl
  | ok geometry => cases hinside : inside geometry <;> simp [hinside, take, Except.map, pure, Except.pure]

theorem visit_eq (s : Selection) (feature : Json) :
    selector.visit inside .null s feature = (selector.candidate? feature).map (take inside s) := by
  unfold visit candidate?
  cases feature.lookup "geometry" with
  | error fault => rfl
  | ok described =>
    cases hdescribed : described.truthy with
    | false => simp only [Result.ok_bind, hdescribed]; rfl
    | true =>
      cases feature.lookup "properties" with
      | error fault => simp only [Result.ok_bind, hdescribed]; rfl
      | ok authored =>
        simp only [Result.ok_bind, hdescribed, Bool.not_true, Bool.false_eq_true, if_false]
        cases authored.truthy with
        | false => exact selector.add_if_inside s described []
        | true =>
          simp only [if_true]
          cases authored.asFields with
          | error fault => rfl
          | ok properties => exact selector.add_if_inside s described properties

theorem foldlM_visit_eq (features : List Json) (s : Selection) :
    features.foldlM (selector.visit inside .null) s =
      (features.mapM selector.candidate?).map fun found => found.foldl (take inside) s := by
  induction features generalizing s with
  | nil => rfl
  | cons feature rest ih =>
    rw [List.foldlM_cons, List.mapM_cons, visit_eq]
    cases selector.candidate? feature with
    | error fault => rfl
    | ok found =>
      refine (ih (take inside s found)).trans ?_
      cases rest.mapM selector.candidate? with
      | error fault => rfl
      | ok others => rfl

theorem selected_foldl_take (found : List (Option (Candidate γ))) (s : Selection) :
    (found.foldl (take inside) s).selected.reverse = s.selected.reverse ++
      ((found.filterMap id).filter fun c => inside c.geometry).map Candidate.properties := by
  induction found generalizing s with
  | nil => simp
  | cons first rest ih =>
    rw [List.foldl_cons, ih]
    cases first with
    | none => simp [take]
    | some c => cases hinside : inside c.geometry <;> simp [take, Selection.add, hinside]

theorem run_eq (collection : Json) : selector.run inside .null collection =
    (selector.candidates collection).map fun found =>
      (found.filter fun c => inside c.geometry).map Candidate.properties := by
  unfold run candidates
  cases collection.lookup "features" with
  | error fault => rfl
  | ok authored =>
    have hrest (features : List Json) :
        (do return (← features.foldlM (selector.visit inside .null) Selection.empty).selected.reverse :
          Result _) = (do return (← features.mapM selector.candidate?).filterMap id : Result _).map
            fun found => (found.filter fun c => inside c.geometry).map Candidate.properties := by
      rw [foldlM_visit_eq]
      cases features.mapM selector.candidate? with
      | error fault => rfl
      | ok found => exact congrArg Except.ok (selected_foldl_take found Selection.empty)
    simp only [Result.ok_bind]
    cases authored.truthy with
    | false => exact hrest []
    | true =>
      simp only [if_true]
      cases authored.elements with
      | error fault => rfl
      | ok features => exact hrest features

end Selector

namespace Viewport

/-- The box of a viewport; edges that are not finite bound none. -/
def box? (v : Viewport) : Option Box := do
  let west ← Binary64.value? v.west
  let south ← Binary64.value? v.south
  let east ← Binary64.value? v.east
  let north ← Binary64.value? v.north
  return ⟨west, south, east, north⟩

theorem corners_eq (v : Viewport) : [[v.west, v.south], [v.east, v.south], [v.east, v.north],
    [v.west, v.north], [v.west, v.south]].mapM Geometry.position? = v.box?.map Box.ring := by
  unfold box?
  cases hwest : Binary64.value? v.west with
  | none => simp [Geometry.position?, hwest]
  | some west =>
    cases hsouth : Binary64.value? v.south with
    | none => simp [Geometry.position?, hwest, hsouth]
    | some south =>
      cases heast : Binary64.value? v.east with
      | none => simp [Geometry.position?, hwest, hsouth, heast]
      | some east =>
        cases hnorth : Binary64.value? v.north with
        | none => simp [Geometry.position?, hwest, hsouth, heast, hnorth]
        | some north => simp [Geometry.position?, hwest, hsouth, heast, hnorth, Box.ring]

theorem readArea_ring {ring : Json} {positions : List (List Float)}
    (hring : Geometry.readRing ring = .ok positions) (hnull : ring.isNull = false)
    (hpositions : positions.isEmpty = false) : Geometry.readArea ring [] =
      .ok ((positions.mapM Geometry.position?).map fun found => Shape.area [found]).toList := by
  unfold Geometry.readArea
  rw [hring, hnull]
  simp only [Bool.false_eq_true, if_false, Result.ok_bind, List.mapM_nil, hpositions, pure, Except.pure,
    List.mapM_cons]
  cases positions.mapM Geometry.position? with
  | none => rfl
  | some found => rfl

theorem ofJson_polygon (v : Viewport) :
    Geometry.ofJson v.polygon = .ok (v.box?.map Box.shape).toList := by
  have hopen : ∃ ring, ring.isNull = false ∧ Geometry.readRing ring = .ok [[v.west, v.south],
      [v.east, v.south], [v.east, v.north], [v.west, v.north], [v.west, v.south]] ∧
        Geometry.ofJson v.polygon = Geometry.readArea ring [] := by
    refine ⟨.list [.list [.float v.west, .float v.south], .list [.float v.east, .float v.south],
      .list [.float v.east, .float v.north], .list [.float v.west, .float v.north],
      .list [.float v.west, .float v.south]], rfl, rfl, ?_⟩
    rw [polygon, Geometry.ofJson]
    show Geometry.ofFields "polygon" _ _ = _
    rw [Geometry.ofFields]
    rfl
  obtain ⟨ring, hnull, hring, hread⟩ := hopen
  rw [hread, readArea_ring hring hnull rfl, corners_eq, Option.map_map]
  rfl

/-- What a viewport shows: the positions between its edges. -/
def Shows (v : Viewport) (p : Position) : Prop := ∃ b, v.box? = some b ∧ b.Contains p

/-- One viewport lies in another. Everything lies in the whole world, which lies in itself alone. -/
def Within : Option Viewport → Option Viewport → Prop
  | _, none => True
  | none, some _ => False
  | some v, some w => ∀ p, v.Shows p → w.Shows p

theorem intersects_iff {v : Viewport} {geometry : Geometry} :
    Geometry.intersects (v.box?.map Box.shape).toList geometry = true ↔
      ∃ shape ∈ geometry, ∃ p, v.Shows p ∧ (shape.covers p = true ∨ p ∈ shape.witnesses) := by
  unfold Shows
  cases v.box? with
  | none => simp [Geometry.intersects]
  | some b => simp [Geometry.intersects, Box.meets_iff]

theorem intersects_mono {v w : Viewport} (h : Within (some v) (some w)) {geometry : Geometry}
    (hv : Geometry.intersects (v.box?.map Box.shape).toList geometry = true) :
    Geometry.intersects (w.box?.map Box.shape).toList geometry = true := by
  obtain ⟨shape, hshape, p, hp, hcovers⟩ := intersects_iff.mp hv
  exact intersects_iff.mpr ⟨shape, hshape, p, h p hp, hcovers⟩

section Selections

variable {γ : Type} (selector : Selector γ)

/-- The features of a collection in a viewport, without an id property. -/
def select (viewport collection : Json) : Result (List Json.Fields) := do
  selector.select collection (← filter viewport) .null

/-- One viewport meets whatever another one does. The whole world has no area to meet anything. -/
def Grows : Option Viewport → Option Viewport → Prop
  | _, none => True
  | none, some _ => False
  | some v, some w => ∀ area, selector.read v.polygon = .ok area → ∃ wider, selector.read w.polygon = .ok wider ∧
      ∀ geometry, selector.meets area geometry = true → selector.meets wider geometry = true

def kept (area : γ) (found : List (Selection.Candidate γ)) : List Json.Fields :=
  (found.filter fun c => selector.meets area c.geometry).map Selection.Candidate.properties

theorem select_of_viewport {viewport : Json} {v : Viewport} (h : ofJson viewport = .ok (some v))
    (collection : Json) : select selector viewport collection =
      (selector.read v.polygon >>= fun area => (selector.candidates collection).map (kept selector area)) := by
  unfold select filter
  rw [h]
  show selector.select collection v.polygon .null = _
  unfold Selector.select
  cases selector.read v.polygon with
  | error fault => rfl
  | ok area => exact selector.run_eq collection

theorem select_of_world {viewport : Json} (h : ofJson viewport = .ok none) (collection : Json) :
    select selector viewport collection = .ok [] := by
  unfold select filter
  rw [h]
  rfl

theorem grows_plane {v w : Option Viewport} (h : Within v w) : Grows .plane v w := by
  cases w with
  | none => trivial
  | some w =>
    cases v with
    | none => exact h
    | some v =>
      intro area harea
      obtain rfl := Except.ok.inj ((ofJson_polygon v).symm.trans harea)
      exact ⟨_, ofJson_polygon w, fun geometry => intersects_mono h⟩

/-- A viewport selects all that another one does, in the same order, if it meets what the other one meets,
unless it is the whole world: that one selects nothing. In the plane a viewport meets what the viewports in it
meet. -/
theorem selection_grows_iff {viewport wider : Json} {v w : Option Viewport} (hv : ofJson viewport = .ok v)
    (hw : ofJson wider = .ok w) :
    (∀ (γ : Type) (selector : Selector γ) (collection : Json) (found : List Json.Fields),
      Grows selector v w → select selector viewport collection = .ok found →
      ((∃ more, select selector wider collection = .ok more ∧ found.Sublist more) ↔
        w ≠ none ∨ found = [])) ∧
    (Within v w → Grows .plane v w) := by
  refine ⟨?_, grows_plane⟩
  intro γ selector collection found hgrows hfound
  cases w with
  | none => simp [select_of_world selector hw]
  | some w =>
    cases v with
    | none => exact absurd hgrows id
    | some v =>
      rw [select_of_viewport selector hv, Result.bind_eq_ok_iff] at hfound
      obtain ⟨area, harea, hfound⟩ := hfound
      obtain ⟨candidates, hcandidates, rfl⟩ := Result.map_eq_ok_iff.mp hfound
      obtain ⟨larger, hlarger, hmeets⟩ := hgrows area harea
      rw [select_of_viewport selector hw, hlarger, Result.ok_bind, hcandidates]
      refine iff_of_true ⟨kept selector larger candidates, rfl, ?_⟩ (.inl (Option.some_ne_none w))
      apply List.Sublist.map
      apply List.monotone_filter_right
      intro c hc
      exact hmeets c.geometry hc

end Selections

def edges (west south east north : Int) : Json := .list [.int west, .int south, .int east, .int north]

def readsAs (viewport : Json) (b : Box) : Bool :=
  match ofJson viewport with
  | .ok (some v) => v.box? = some b
  | _ => false

theorem exists_of_readsAs {viewport : Json} {b : Box} (h : readsAs viewport b = true) :
    ∃ v, ofJson viewport = .ok (some v) ∧ v.box? = some b := by
  unfold readsAs at h
  split at h
  · next v hv => exact ⟨v, hv, of_decide_eq_true h⟩
  · simp at h

theorem within_of_corners {v w : Viewport} {b c : Box} (hv : v.box? = some b) (hw : w.box? = some c)
    (hlow : c.Contains ⟨b.west, b.south⟩) (hhigh : c.Contains ⟨b.east, b.north⟩) :
    Within (some v) (some w) := by
  rintro p ⟨b', hb', hp⟩
  obtain rfl : b = b' := Option.some.inj (hv.symm.trans hb')
  exact ⟨c, hw, Box.contains_of_corners hlow hhigh hp⟩

def originPoint : Json := .object [("type", .text "Point"), ("coordinates", .list [.int 0, .int 0])]

def pointFeature : Json := .object [("geometry", originPoint), ("properties", .object [("n", .int 1)])]

def pointCollection : Json :=
  .object [("type", .text "FeatureCollection"), ("features", .list [pointFeature])]

theorem ofJson_originPoint : Geometry.ofJson originPoint = .ok [.point ⟨0, 0⟩] := by
  rw [originPoint, Geometry.ofJson]
  show Geometry.ofFields "point" _ _ = _
  rw [Geometry.ofFields]
  apply Result.eq_ok_of_toOption
  decide +kernel

theorem candidates_pointCollection : Selector.plane.candidates pointCollection =
    .ok [⟨[.point ⟨0, 0⟩], [("n", .int 1)]⟩] := by
  have hcollection : Selector.plane.candidates pointCollection =
      (do return (← [pointFeature].mapM Selector.plane.candidate?).filterMap id : Result _) := rfl
  have hfeature : Selector.plane.candidate? pointFeature =
      (Geometry.ofJson originPoint).map fun geometry => some ⟨geometry, [("n", .int 1)]⟩ := rfl
  rw [hcollection, List.mapM_cons, hfeature, ofJson_originPoint]
  rfl

theorem select_around {viewport : Json} {b : Box} (h : readsAs viewport b = true)
    (hin : b.Contains ⟨0, 0⟩) : select .plane viewport pointCollection = .ok [[("n", .int 1)]] := by
  obtain ⟨v, hv, hbox⟩ := exists_of_readsAs h
  have hmeets : Geometry.intersects (v.box?.map Box.shape).toList [.point ⟨0, 0⟩] = true :=
    intersects_iff.mpr ⟨_, List.mem_singleton_self _, ⟨0, 0⟩, ⟨b, hbox, hin⟩, .inl rfl⟩
  rw [select_of_viewport .plane hv, candidates_pointCollection]
  show (Geometry.ofJson v.polygon >>= _) = _
  rw [ofJson_polygon, Result.ok_bind]
  simp [Except.map, kept, Selector.plane, hmeets]

/-- Two viewports around the point, the larger one around the smaller. -/
theorem selection_grows_around_point : ∃ found more,
    select .plane (edges (-10) (-10) 10 10) pointCollection = .ok found ∧ found ≠ [] ∧
    select .plane (edges (-20) (-20) 20 20) pointCollection = .ok more ∧ found.Sublist more := by
  have hsmall : readsAs (edges (-10) (-10) 10 10) ⟨-10, -10, 10, 10⟩ = true := by
    decide +kernel
  have hlarge : readsAs (edges (-20) (-20) 20 20) ⟨-20, -20, 20, 20⟩ = true := by
    decide +kernel
  obtain ⟨v, hv, hvbox⟩ := exists_of_readsAs hsmall
  obtain ⟨w, hw, hwbox⟩ := exists_of_readsAs hlarge
  have hwithin : Within (some v) (some w) :=
    within_of_corners hvbox hwbox ⟨by decide, by decide⟩ ⟨by decide, by decide⟩
  have hfound := select_around hsmall ⟨by decide, by decide⟩
  obtain ⟨hgrows, hplane⟩ := selection_grows_iff hv hw
  obtain ⟨more, hmore, hsub⟩ :=
    (hgrows _ .plane _ _ (hplane hwithin) hfound).mpr (.inl (Option.some_ne_none w))
  exact ⟨_, more, hfound, List.cons_ne_nil _ _, hmore, hsub⟩

/-- Of what a viewport selects the whole world, which contains it, loses everything. -/
theorem world_selects_nothing : ∃ v,
    ofJson (edges (-10) (-10) 10 10) = .ok v ∧ ofJson (edges (-180) (-90) 180 90) = .ok none ∧
    Within v none ∧ select .plane (edges (-10) (-10) 10 10) pointCollection = .ok [[("n", .int 1)]] ∧
    select .plane (edges (-180) (-90) 180 90) pointCollection = .ok [] := by
  have hsmall : readsAs (edges (-10) (-10) 10 10) ⟨-10, -10, 10, 10⟩ = true := by
    decide +kernel
  obtain ⟨v, hv, -⟩ := exists_of_readsAs hsmall
  have hglobal : isGlobal (.int (-180)) (.int (-90)) (.int 180) (.int 90) = .ok true := by
    apply Result.eq_ok_of_toOption
    decide +kernel
  have hworld : ofJson (edges (-180) (-90) 180 90) = .ok none := by
    show (isGlobal (.int (-180)) (.int (-90)) (.int 180) (.int 90) >>= _) = _
    rw [hglobal]
    rfl
  exact ⟨some v, hv, hworld, trivial, select_around hsmall ⟨by decide, by decide⟩,
    select_of_world .plane hworld pointCollection⟩

end Viewport

end MapLayers
