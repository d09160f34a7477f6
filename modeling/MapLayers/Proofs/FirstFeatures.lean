import Mathlib.Data.List.Induction
import MapLayers.Proofs.Values
import MapLayers.Proofs.ViewportSelection

/-!
# Selection of features by id

With an id property a selection keeps of the features inside an area the first one with each id. What
decides about a feature are the earlier features inside, whether or not they have been selected
themselves. Features outside the area and features without a geometry decide nothing, wherever they stand
and whatever ids they have. Being the same is symmetric and transitive on ids. It is not reflexive where
the collection holds many NaN: each of them is an id of its own then, and none of them is met again.
-/

namespace MapLayers

namespace Selection

/-- The property that an id property names. An empty name names none. -/
def namedProperty : Json → Option String
  | .text name => if name = "" then none else some name
  | _ => none

variable {γ : Type}

def Candidate.id? (property : Option String) (c : Candidate γ) : Option Json :=
  property.bind (Entries.get? c.properties)

/-- An id is no list and no object. -/
def Candidate.HasScalarId (property : Option String) (c : Candidate γ) : Prop :=
  ∀ id, c.id? property = some id → id.hashable = true

theorem idOf_eq {idProperty : Json} (h : idProperty.isNull = true ∨ idProperty.isText = true)
    (c : Candidate γ) : idOf idProperty c.properties = .ok (c.id? (namedProperty idProperty)) := by
  cases idProperty with
  | null => rfl
  | text name => by_cases hname : name = "" <;>
      simp [idOf, Json.truthy, namedProperty, Candidate.id?, hname]
  | _ => simp [Json.isNull, Json.isText] at h

end Selection

namespace Selector

open Selection (Candidate namedProperty idOf idOf_eq)

variable {γ : Type} {selector : Selector γ} {property : Option String} {a b c : Candidate γ}

theorem sameId_iff {id other : Json} : selector.sameId id other = true ↔
    id.same other = true ∨ selector.oneNaN = true ∧ id.isNaN = true ∧ other.isNaN = true := by
  simp [sameId, and_assoc]

theorem sameId_self {id : Json} (hid : id.hashable = true)
    (hnan : id.isNaN = true → selector.oneNaN = true) : selector.sameId id id = true := by
  rw [sameId_iff]
  cases hself : id.isNaN with
  | true => exact .inr ⟨hnan hself, rfl, rfl⟩
  | false => exact .inl (Json.same_self hid hself)

theorem sameId_symm {id other : Json} (hid : id.hashable = true) (hother : other.hashable = true)
    (h : selector.sameId id other = true) : selector.sameId other id = true := by
  rw [sameId_iff] at h ⊢
  rcases h with hsame | ⟨hone, hnan, hnan'⟩
  · exact .inl (Json.same_symm hid hother hsame)
  · exact .inr ⟨hone, hnan', hnan⟩

theorem sameId_trans {id other third : Json} (hid : id.hashable = true) (hother : other.hashable = true)
    (hthird : third.hashable = true) (h : selector.sameId id other = true)
    (h' : selector.sameId other third = true) : selector.sameId id third = true := by
  rw [sameId_iff] at h h' ⊢
  rcases h with hsame | ⟨hone, hnan, hnan'⟩ <;> rcases h' with hsame' | ⟨-, hnan'', hnan₃⟩
  · exact .inl (Json.same_trans hid hother hthird hsame hsame')
  · exact absurd (Json.same_symm hid hother hsame) (by simp [Json.same_of_isNaN hother hid hnan''])
  · exact absurd hsame' (by simp [Json.same_of_isNaN hother hthird hnan'])
  · exact .inr ⟨hone, hnan, hnan₃⟩

section Firsts
variable (selector : Selector γ) (inside : γ → Bool) (property : Option String)

/-- Ids are the same if both are there and the same. -/
def sharesId : Option Json → Option Json → Bool
  | some id, some other => selector.sameId id other
  | _, _ => false

/-- One of some earlier candidates is inside and has the id. -/
def taken (earlier : List (Candidate γ)) (id : Option Json) : Bool :=
  earlier.any fun e => inside e.geometry && selector.sharesId id (e.id? property)

/-- A candidate inside, of whose id there is none earlier inside. -/
def isFirst (earlier : List (Candidate γ)) (c : Candidate γ) : Bool :=
  inside c.geometry && !selector.taken inside property earlier (c.id? property)

/-- The candidates, in their order, that are first with regard to those before them. -/
def firsts (found : List (Candidate γ)) : List (Candidate γ) :=
  (found.zipIdx.filter fun entry =>
    selector.isFirst inside property (found.take entry.2) entry.1).map Prod.fst

end Firsts

variable {inside : γ → Bool}

theorem firsts_nil : selector.firsts inside property [] = [] := rfl

theorem firsts_concat (found : List (Candidate γ)) (c : Candidate γ) :
    selector.firsts inside property (found ++ [c]) = selector.firsts inside property found ++
      if selector.isFirst inside property found c then [c] else [] := by
  -- The earlier candidates stand at the same places in the longer list.
  have hearlier : (found.zipIdx.filter fun entry =>
      selector.isFirst inside property ((found ++ [c]).take entry.2) entry.1) =
      found.zipIdx.filter fun entry => selector.isFirst inside property (found.take entry.2) entry.1 := by
    refine List.filter_congr fun entry hentry => ?_
    have hplace := List.snd_lt_of_mem_zipIdx hentry
    rw [List.take_append_of_le_length (by omega)]
  rw [firsts, List.zipIdx_append, List.filter_append, List.map_append, hearlier]
  cases hfirst : selector.isFirst inside property found c <;> simp [firsts, hfirst]

theorem mem_firsts {found : List (Candidate γ)} (h : c ∈ selector.firsts inside property found) :
    c ∈ found ∧ inside c.geometry = true := by
  obtain ⟨entry, hentry, rfl⟩ := List.mem_map.mp h
  obtain ⟨hmem, hfirst⟩ := List.mem_filter.mp hentry
  exact ⟨List.fst_mem_of_mem_zipIdx hmem, (Bool.and_eq_true_iff.mp hfirst).1⟩

theorem firsts_filter (found : List (Candidate γ)) :
    selector.firsts inside property (found.filter fun c => inside c.geometry) =
      selector.firsts inside property found := by
  have htaken (earlier : List (Candidate γ)) (id : Option Json) :
      selector.taken inside property (earlier.filter fun c => inside c.geometry) id =
        selector.taken inside property earlier id := by
    simp only [taken, List.any_filter, ← Bool.and_assoc, Bool.and_self]
  induction found using List.reverseRecOn with
  | nil => rfl
  | append_singleton found c ih =>
    rw [List.filter_append, firsts_concat, ← ih]
    cases hinside : inside c.geometry with
    | false => simp [hinside, isFirst]
    | true => rw [List.filter_cons_of_pos (by simpa using hinside), List.filter_nil, firsts_concat,
        isFirst, isFirst, htaken]

/-- The selection has met the ids of the earlier candidates inside, and selected the first of them. -/
structure Follows (selector : Selector γ) (inside : γ → Bool) (property : Option String)
    (earlier : List (Candidate γ)) (s : Selection) : Prop where
  ids : ∀ id, id.hashable = true → s.ids.any (selector.sameId id) = selector.taken inside property earlier (some id)
  selected : s.selected.reverse = (selector.firsts inside property earlier).map Candidate.properties

theorem follows_empty : Follows selector inside property [] Selection.empty := ⟨fun _ _ => rfl, rfl⟩

variable {earlier : List (Candidate γ)} {s : Selection} {idProperty : Json}

theorem Follows.hasMet_eq (h : Follows selector inside property earlier s) (hc : c.HasScalarId property) :
    selector.hasMet s (c.id? property) = .ok (selector.taken inside property earlier (c.id? property)) := by
  cases hid : c.id? property with
  | none => simp [hasMet, taken, sharesId]
  | some id => simp only [hasMet, hc id hid, if_true, h.ids id (hc id hid)]

/-- The properties of a feature, of which there may be none. -/
def readProperties (authored : Json) : Result Json.Fields :=
  if authored.truthy then authored.asFields else .ok []

theorem candidate?_inv {feature : Json} (h : selector.candidate? feature = .ok (some c)) :
    ∃ described authored, feature.lookup "geometry" = .ok described ∧ described.truthy = true ∧
      feature.lookup "properties" = .ok authored ∧ readProperties authored = .ok c.properties ∧
      selector.read described = .ok c.geometry := by
  simp only [candidate?, Result.bind_eq_ok_iff] at h
  obtain ⟨described, hdescribed, h⟩ := h
  cases hgeometry : described.truthy with
  | false => simp [hgeometry] at h
  | true =>
    simp only [hgeometry, Bool.not_true, Bool.false_eq_true, if_false, Result.bind_eq_ok_iff] at h
    obtain ⟨authored, hauthored, h⟩ := h
    cases hany : authored.truthy with
    | false =>
      simp only [hany, Bool.false_eq_true, if_false, Result.bind_eq_ok_iff, Result.pure_eq_ok_iff,
        Option.some.injEq] at h
      obtain ⟨_, rfl, geometry, hread, rfl⟩ := h
      exact ⟨described, authored, hdescribed, hgeometry, hauthored, by simp [readProperties, hany],
        hread⟩
    | true =>
      simp only [hany, if_true, Result.bind_eq_ok_iff, Result.pure_eq_ok_iff, Option.some.injEq] at h
      obtain ⟨properties, hproperties, geometry, hread, rfl⟩ := h
      exact ⟨described, authored, hdescribed, hgeometry, hauthored,
        by simp [readProperties, hany, hproperties], hread⟩

theorem geometry_of_none {feature : Json} (h : selector.candidate? feature = .ok none) :
    ∃ described, feature.lookup "geometry" = .ok described ∧ described.truthy = false := by
  simp only [candidate?, Result.bind_eq_ok_iff] at h
  obtain ⟨described, hdescribed, h⟩ := h
  refine ⟨described, hdescribed, Bool.eq_false_iff.mpr fun hgeometry => ?_⟩
  simp only [hgeometry, Bool.not_true, Bool.false_eq_true, if_false, Result.bind_eq_ok_iff] at h
  obtain ⟨authored, -, h⟩ := h
  split at h <;> simp only [Result.bind_eq_ok_iff, Result.pure_eq_ok_iff, reduceCtorEq, and_false,
    exists_false] at h

theorem visit_of_none {feature : Json} (h : selector.candidate? feature = .ok none) :
    selector.visit inside idProperty s feature = .ok s := by
  obtain ⟨described, hdescribed, hgeometry⟩ := geometry_of_none h
  simp [visit, hdescribed, hgeometry, pure, Except.pure]

theorem visit_of_some {feature : Json} (h : selector.candidate? feature = .ok (some c))
    (hproperty : idProperty.isNull = true ∨ idProperty.isText = true) {met : Bool}
    (hmet : selector.hasMet s (c.id? (namedProperty idProperty)) = .ok met) :
    selector.visit inside idProperty s feature =
      .ok (if inside c.geometry && !met then s.add (c.id? (namedProperty idProperty)) c.properties
        else s) := by
  obtain ⟨described, authored, hdescribed, hgeometry, hauthored, hproperties, hread⟩ :=
    candidate?_inv h
  have hvisit : selector.visit inside idProperty s feature = (readProperties authored).bind fun properties =>
      (idOf idProperty properties).bind fun id => (selector.hasMet s id).bind fun met =>
        if met then .ok s
        else (selector.read described).bind fun geometry =>
          if inside geometry then .ok (s.add id properties) else .ok s := by
    simp only [visit, hdescribed, Result.ok_bind, hgeometry, Bool.not_true, Bool.false_eq_true, if_false,
      hauthored, readProperties]
    cases authored.truthy <;> rfl
  simp only [hvisit, hproperties, Except.bind, idOf_eq hproperty, hmet, hread]
  cases met <;> cases inside c.geometry <;> rfl

theorem taken_concat (earlier : List (Candidate γ)) (c : Candidate γ) (id : Option Json) :
    selector.taken inside property (earlier ++ [c]) id =
      (selector.taken inside property earlier id || inside c.geometry && selector.sharesId id (c.id? property)) := by
  simp [taken]

theorem taken_of_same (hids : ∀ e ∈ earlier, e.HasScalarId property) {id other : Json}
    (hid : id.hashable = true) (hother : other.hashable = true) (hsame : selector.sameId id other = true)
    (htaken : selector.taken inside property earlier (some other) = true) :
    selector.taken inside property earlier (some id) = true := by
  obtain ⟨e, he, htaken⟩ := List.any_eq_true.mp htaken
  obtain ⟨hinside, hequal⟩ := Bool.and_eq_true_iff.mp htaken
  refine List.any_eq_true.mpr ⟨e, he, ?_⟩
  rw [hinside, Bool.true_and]
  cases hfirst : e.id? property with
  | none => simp [sharesId, hfirst] at hequal
  | some first =>
    rw [hfirst] at hequal
    exact sameId_trans hid hother (hids e he first hfirst) hsame hequal

theorem taken_congr (hids : ∀ e ∈ earlier, e.HasScalarId property) (hc : c.HasScalarId property)
    {id : Json} (hid : id.hashable = true) (hsame : selector.sharesId (some id) (c.id? property) = true) :
    selector.taken inside property earlier (c.id? property) = selector.taken inside property earlier (some id) := by
  cases hcid : c.id? property with
  | none => simp [sharesId, hcid] at hsame
  | some other =>
    rw [hcid] at hsame
    exact Bool.eq_iff_iff.mpr
      ⟨taken_of_same hids hid (hc other hcid) hsame,
        taken_of_same hids (hc other hcid) hid (sameId_symm hid (hc other hcid) hsame)⟩

theorem Follows.add (h : Follows selector inside property earlier s)
    (hfirst : selector.isFirst inside property earlier c = true) :
    Follows selector inside property (earlier ++ [c]) (s.add (c.id? property) c.properties) := by
  obtain ⟨hinside, -⟩ := Bool.and_eq_true_iff.mp hfirst
  constructor
  · intro id hid
    rw [taken_concat, hinside, Bool.true_and, ← h.ids id hid]
    cases hcid : c.id? property with
    | none => simp [Selection.add, sharesId]
    | some other => simp [Selection.add, sharesId, Bool.or_comm]
  · rw [firsts_concat, hfirst]
    simp [Selection.add, h.selected]

theorem Follows.pass (h : Follows selector inside property earlier s)
    (hids : ∀ e ∈ earlier, e.HasScalarId property) (hc : c.HasScalarId property)
    (hfirst : selector.isFirst inside property earlier c = false) :
    Follows selector inside property (earlier ++ [c]) s := by
  constructor
  · intro id hid
    rw [h.ids id hid, taken_concat]
    cases hinside : inside c.geometry with
    | false => simp
    | true =>
      have htaken : selector.taken inside property earlier (c.id? property) = true := by
        simpa [isFirst, hinside] using hfirst
      cases hsame : selector.sharesId (some id) (c.id? property) with
      | false => simp
      | true => simp [← taken_congr hids hc hid hsame, htaken]
  · rw [firsts_concat, hfirst, h.selected]
    simp

theorem Follows.visit (h : Follows selector inside (namedProperty idProperty) earlier s)
    (hproperty : idProperty.isNull = true ∨ idProperty.isText = true)
    {feature : Json} {found : Option (Candidate γ)} (hfeature : selector.candidate? feature = .ok found)
    (hids : ∀ e ∈ earlier ++ found.toList, e.HasScalarId (namedProperty idProperty)) :
    ∃ next, selector.visit inside idProperty s feature = .ok next ∧
      Follows selector inside (namedProperty idProperty) (earlier ++ found.toList) next := by
  cases found with
  | none => exact ⟨s, visit_of_none hfeature, by simpa using h⟩
  | some c =>
    have hc : c.HasScalarId (namedProperty idProperty) := hids c (by simp)
    refine ⟨_, visit_of_some hfeature hproperty (h.hasMet_eq hc), ?_⟩
    cases hfirst : selector.isFirst inside (namedProperty idProperty) earlier c with
    | true =>
      rw [isFirst] at hfirst
      rw [if_pos hfirst]
      exact h.add hfirst
    | false =>
      rw [isFirst] at hfirst
      rw [if_neg (Bool.eq_false_iff.mp hfirst)]
      exact h.pass (fun e he => hids e (List.mem_append_left _ he)) hc hfirst

theorem Follows.run (h : Follows selector inside (namedProperty idProperty) earlier s)
    (hproperty : idProperty.isNull = true ∨ idProperty.isText = true)
    {features : List Json} {found : List (Option (Candidate γ))}
    (hfeatures : features.mapM selector.candidate? = .ok found)
    (hids : ∀ e ∈ earlier ++ found.filterMap id, e.HasScalarId (namedProperty idProperty)) :
    ∃ final, features.foldlM (selector.visit inside idProperty) s = .ok final ∧
      Follows selector inside (namedProperty idProperty) (earlier ++ found.filterMap id) final := by
  induction features generalizing earlier s found with
  | nil =>
    obtain rfl : [] = found := by simpa using hfeatures
    exact ⟨s, rfl, by simpa using h⟩
  | cons feature rest ih =>
    simp only [List.mapM_cons, Result.bind_eq_ok_iff, Result.pure_eq_ok_iff] at hfeatures
    obtain ⟨first, hfirst, others, hothers, rfl⟩ := hfeatures
    have hsplit : earlier ++ (first :: others).filterMap id =
        (earlier ++ first.toList) ++ others.filterMap id := by
      cases first <;> simp
    rw [hsplit] at hids ⊢
    obtain ⟨next, hnext, hfollows⟩ :=
      h.visit hproperty hfirst fun e he => hids e (List.mem_append_left _ he)
    obtain ⟨final, hfinal, hend⟩ := ih hfollows hothers hids
    exact ⟨final, by rw [List.foldlM_cons, hnext, Result.ok_bind, hfinal], hend⟩

theorem pairwise_firsts (found : List (Candidate γ)) :
    (selector.firsts inside property found).Pairwise fun a b =>
      selector.sharesId (b.id? property) (a.id? property) = false := by
  induction found using List.reverseRecOn with
  | nil => exact List.Pairwise.nil
  | append_singleton found c ih =>
    rw [firsts_concat]
    cases hfirst : selector.isFirst inside property found c with
    | false => simpa using ih
    | true =>
      obtain ⟨-, hnew⟩ := Bool.and_eq_true_iff.mp hfirst
      refine List.pairwise_append.mpr ⟨ih, by simp, fun a ha b hb => ?_⟩
      obtain rfl : b = c := by simpa using hb
      obtain ⟨hmem, hinside⟩ := mem_firsts ha
      -- Otherwise the id of the last candidate were taken by the earlier one.
      refine Bool.eq_false_iff.mpr fun hsame => ?_
      have htaken : selector.taken inside property found (b.id? property) = true :=
        List.any_eq_true.mpr ⟨a, hmem, by rw [hinside, hsame]; rfl⟩
      simp [htaken] at hnew

theorem countP_firsts {found : List (Candidate γ)} (hids : ∀ c ∈ found, c.HasScalarId property) {id : Json}
    (hid : id.hashable = true) :
    (selector.firsts inside property found).countP (fun e => selector.sharesId (some id) (e.id? property)) =
      if selector.taken inside property found (some id) then 1 else 0 := by
  induction found using List.reverseRecOn with
  | nil => rfl
  | append_singleton found c ih =>
    have hc : c.HasScalarId property := hids c (by simp)
    have hearlier : ∀ e ∈ found, e.HasScalarId property := fun e he => hids e (by simp [he])
    rw [firsts_concat, List.countP_append, ih hearlier, taken_concat]
    cases hsame : selector.sharesId (some id) (c.id? property) with
    | false => cases selector.isFirst inside property found c <;> simp [hsame]
    | true =>
      have hboth : selector.taken inside property found (c.id? property) =
          selector.taken inside property found (some id) := taken_congr hearlier hc hid hsame
      cases hinside : inside c.geometry <;>
        cases hold : selector.taken inside property found (some id) <;>
          simp [isFirst, hinside, hboth, hold, hsame]

/-- The features of a collection, of which there may be none. -/
def features (collection : Json) : Result (List Json) := do
  let authored ← collection.lookup "features"
  if authored.truthy then authored.elements else return []

def insideCandidate? (selector : Selector γ) (inside : γ → Bool) (feature : Json) : Option (Candidate γ) :=
  match selector.candidate? feature with
  | .ok (some c) => if inside c.geometry then some c else none
  | _ => none

/-- A feature counts if it has a geometry that is inside. -/
def counts (selector : Selector γ) (inside : γ → Bool) (feature : Json) : Bool :=
  (selector.insideCandidate? inside feature).isSome

variable {collection : Json} {found : List (Candidate γ)}

theorem run_of_visits {all : List Json} {final : Selection} (hall : features collection = .ok all)
    (hfinal : all.foldlM (selector.visit inside idProperty) Selection.empty = .ok final) :
    selector.run inside idProperty collection = .ok final.selected.reverse := by
  simp only [features, Result.bind_eq_ok_iff] at hall
  obtain ⟨authored, hauthored, hall⟩ := hall
  simp only [run, hauthored, Result.ok_bind]
  cases hany : authored.truthy <;>
    simp only [hany, Bool.false_eq_true, if_false, if_true, Result.pure_eq_ok_iff] at hall
  · subst hall
    simp [Except.ok.inj hfinal.symm, pure, Except.pure]
  · simp [hall, hfinal, pure, Except.pure]

theorem candidates_inv (h : selector.candidates collection = .ok found) :
    ∃ all read, features collection = .ok all ∧ all.mapM selector.candidate? = .ok read ∧
      read.filterMap id = found := by
  simp only [candidates, Result.bind_eq_ok_iff] at h
  obtain ⟨authored, hauthored, h⟩ := h
  simp only [features, hauthored, Result.ok_bind]
  cases hany : authored.truthy <;>
    simp only [hany, Bool.false_eq_true, if_false, if_true, Result.bind_eq_ok_iff,
      Result.pure_eq_ok_iff] at h ⊢
  · obtain ⟨all, rfl, read, hread, hfound⟩ := h
    exact ⟨[], read, rfl, hread, hfound⟩
  · obtain ⟨all, hall, read, hread, hfound⟩ := h
    exact ⟨all, read, hall, hread, hfound⟩

theorem filter_read {all : List Json} {read : List (Option (Candidate γ))}
    (h : all.mapM selector.candidate? = .ok read) :
    (read.filterMap id).filter (fun c => inside c.geometry) =
      all.filterMap (selector.insideCandidate? inside) := by
  induction all generalizing read with
  | nil =>
    obtain rfl : [] = read := by simpa using h
    rfl
  | cons feature rest ih =>
    simp only [List.mapM_cons, Result.bind_eq_ok_iff, Result.pure_eq_ok_iff] at h
    obtain ⟨first, hfirst, others, hothers, rfl⟩ := h
    cases first with
    | none => simp [insideCandidate?, hfirst, ← ih hothers]
    | some c =>
      cases hinside : inside c.geometry <;> simp [insideCandidate?, hfirst, hinside, ← ih hothers]

theorem filterMap_counts (all : List Json) :
    (all.filter (selector.counts inside)).filterMap (selector.insideCandidate? inside) =
      all.filterMap (selector.insideCandidate? inside) := by
  induction all with
  | nil => rfl
  | cons feature rest ih =>
    rw [List.filter_cons]
    cases hfound : selector.insideCandidate? inside feature <;> simp [counts, hfound, ih]

theorem run_eq_firsts (hfound : selector.candidates collection = .ok found)
    (hproperty : idProperty.isNull = true ∨ idProperty.isText = true)
    (hids : ∀ c ∈ found, c.HasScalarId (namedProperty idProperty)) :
    selector.run inside idProperty collection =
      .ok ((selector.firsts inside (namedProperty idProperty) found).map Candidate.properties) := by
  obtain ⟨all, read, hall, hread, rfl⟩ := candidates_inv hfound
  have hstart : Follows selector inside (namedProperty idProperty) [] Selection.empty := follows_empty
  obtain ⟨final, hfinal, hfollows⟩ := hstart.run hproperty hread (by simpa using hids)
  rw [run_of_visits hall hfinal, hfollows.selected, List.nil_append]

/-- What lies inside a filter. Nothing does where there is no filter. -/
def insideOf (selector : Selector γ) (filter : Json) : Result (γ → Bool) :=
  if filter.truthy then (selector.read filter).map selector.meets else .ok fun _ => false

variable {filter : Json}

theorem select_eq_firsts (hfilter : selector.insideOf filter = .ok inside)
    (hfound : selector.candidates collection = .ok found)
    (hproperty : idProperty.isNull = true ∨ idProperty.isText = true)
    (hids : ∀ c ∈ found, c.HasScalarId (namedProperty idProperty)) :
    selector.select collection filter idProperty =
      .ok ((selector.firsts inside (namedProperty idProperty) found).map Candidate.properties) := by
  cases hgiven : filter.truthy with
  | false =>
    obtain rfl : (fun _ => false) = inside := by simpa [insideOf, hgiven] using hfilter
    rw [← firsts_filter]
    simp [select, hgiven, pure, Except.pure, firsts_nil]
  | true =>
    rw [insideOf, if_pos hgiven, Result.map_eq_ok_iff] at hfilter
    obtain ⟨area, harea, rfl⟩ := hfilter
    simp only [select, hgiven, Bool.not_true, Bool.false_eq_true, if_false, harea, Result.ok_bind]
    exact run_eq_firsts hfound hproperty hids

/-- What is selected from a collection with the given candidates. -/
structure SelectsFirsts (selector : Selector γ) (collection filter idProperty : Json)
    (inside : γ → Bool) (found : List (Candidate γ)) : Prop where
  /-- The properties of the first candidates, in the order of the features. -/
  result : selector.select collection filter idProperty =
    .ok ((selector.firsts inside (namedProperty idProperty) found).map Candidate.properties)
  distinct : (selector.firsts inside (namedProperty idProperty) found).Pairwise fun a b =>
    selector.sharesId (b.id? (namedProperty idProperty)) (a.id? (namedProperty idProperty)) = false
  /-- Each id of a candidate inside is there once, but for NaN in a collection that holds many of them. -/
  once : ∀ c ∈ found, inside c.geometry = true → ∀ id, c.id? (namedProperty idProperty) = some id →
    (id.isNaN = true → selector.oneNaN = true) →
    (selector.firsts inside (namedProperty idProperty) found).countP
      (fun e => selector.sharesId (some id) (e.id? (namedProperty idProperty))) = 1
  /-- Any other collection gives the same as long as the same features count. -/
  unaffected : ∀ other others all found', features collection = .ok all → features other = .ok others →
    others.filter (selector.counts inside) = all.filter (selector.counts inside) →
    selector.candidates other = .ok found' → (∀ c ∈ found', c.HasScalarId (namedProperty idProperty)) →
    selector.select other filter idProperty = selector.select collection filter idProperty

/-- A selection by a filter and an id property keeps the first candidate inside with each id. -/
theorem selectsFirsts (hfilter : selector.insideOf filter = .ok inside)
    (hfound : selector.candidates collection = .ok found)
    (hproperty : idProperty.isNull = true ∨ idProperty.isText = true)
    (hids : ∀ c ∈ found, c.HasScalarId (namedProperty idProperty)) :
    SelectsFirsts selector collection filter idProperty inside found := by
  have hresult := select_eq_firsts hfilter hfound hproperty hids
  refine ⟨hresult, pairwise_firsts found, ?_, ?_⟩
  · intro c hc hinside id hid hnan
    have htaken : selector.taken inside (namedProperty idProperty) found (some id) = true := by
      refine List.any_eq_true.mpr ⟨c, hc, ?_⟩
      rw [hinside, hid, Bool.true_and]
      exact sameId_self (hids c hc id hid) hnan
    rw [countP_firsts hids (hids c hc id hid), htaken, if_pos rfl]
  · intro other others all found' hall hothers hcounts hfound' hids'
    rw [hresult, select_eq_firsts hfilter hfound' hproperty hids']
    obtain ⟨all', read, hall', hread, rfl⟩ := candidates_inv hfound
    obtain ⟨others', read', hothers', hread', rfl⟩ := candidates_inv hfound'
    obtain rfl : all = all' := Except.ok.inj (hall.symm.trans hall')
    obtain rfl : others = others' := Except.ok.inj (hothers.symm.trans hothers')
    rw [← firsts_filter, filter_read hread', ← filterMap_counts, hcounts, filterMap_counts,
      ← filter_read hread, firsts_filter]

def repeatedPoint : Json := .object [("type", .text "FeatureCollection"),
  ("features", .list [Viewport.pointFeature, Viewport.pointFeature])]

def pointCandidate : Candidate Geometry := ⟨[.point ⟨0, 0⟩], [("n", .int 1)]⟩

theorem candidates_repeatedPoint :
    plane.candidates repeatedPoint = .ok [pointCandidate, pointCandidate] := by
  have hcollection : plane.candidates repeatedPoint =
      (do return (← [Viewport.pointFeature, Viewport.pointFeature].mapM plane.candidate?).filterMap id :
        Result _) := rfl
  have hfeature : plane.candidate? Viewport.pointFeature =
      (Geometry.ofJson Viewport.originPoint).map fun geometry =>
        some ⟨geometry, [("n", .int 1)]⟩ := rfl
  simp only [hcollection, List.mapM_cons, hfeature, Viewport.ofJson_originPoint]
  rfl

/-- A point that is given twice is selected once by its number. -/
theorem repeated_point_selected_once :
    SelectsFirsts plane repeatedPoint Viewport.originPoint (.text "n")
      (Geometry.intersects [.point ⟨0, 0⟩]) [pointCandidate, pointCandidate] ∧
    selectFeatures repeatedPoint Viewport.originPoint (.text "n") = .ok [[("n", .int 1)]] := by
  have hfilter : plane.insideOf Viewport.originPoint = .ok (Geometry.intersects [.point ⟨0, 0⟩]) := by
    have hgiven : Viewport.originPoint.truthy = true := rfl
    have hread : plane.read Viewport.originPoint = .ok [.point ⟨0, 0⟩] := Viewport.ofJson_originPoint
    rw [insideOf, if_pos hgiven, hread]
    rfl
  have hids : ∀ c ∈ [pointCandidate, pointCandidate],
      c.HasScalarId (namedProperty (.text "n")) := by
    intro c hc id hid
    obtain rfl : c = pointCandidate := by simpa using hc
    obtain rfl : Json.int 1 = id := Option.some.inj hid
    rfl
  have hselects := selectsFirsts hfilter candidates_repeatedPoint (.inr rfl) hids
  refine ⟨hselects, ?_⟩
  rw [selectFeatures, hselects.result,
    show [pointCandidate, pointCandidate] = ([] ++ [pointCandidate]) ++ [pointCandidate] from rfl,
    firsts_concat, firsts_concat, if_pos (by decide), if_neg (by decide)]
  rfl

end Selector

end MapLayers
