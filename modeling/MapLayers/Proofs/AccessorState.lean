import MapLayers.Proofs.AccessorPlaces

/-!
# What calls of accessors share

What an accessor keeps from its calls is shared by the props that took the accessor over, and by nothing
else. In any sequence of calls, those of props that share an accessor come out as they would without all
the others, and as the calls of that one accessor.
-/

namespace MapLayers

open Channels (Placed aliases resolvedPath)
open Props (Holds)

theorem Accessor.call_kept {a : Accessor} (h : a.channel? = none) (args : List Json) (kept : Kept) :
    (a.call args kept).2 = kept := by
  have hrow : ∀ row info, (a.callWith row info kept).2 = kept := by
    intro row info
    induction a with
    | color | size => simp [channel?] at h
    | negated inner ih => exact ih h
    | clusterRadius | clusterFont | altitude => cases info <;> rfl
    | _ => rfl
  unfold call
  split
  · exact hrow _ _
  · exact hrow _ _
  · rfl

namespace Memory

variable {m : Memory} {layer other : Nat} {a b : Accessor}

def keptBy (m : Memory) (layer : Nat) (a : Accessor) : Kept :=
  match a.channel? with
  | some channel => m.keptFor layer channel
  | none => .nothing

theorem call_fst (m : Memory) (layer : Nat) (a : Accessor) (args : List Json) :
    (m.call layer a args).1 = (a.call args (m.keptBy layer a)).1 := by
  unfold call keptBy
  cases a.channel? <;> rfl

theorem keptBy_call_self (m : Memory) (layer : Nat) (a : Accessor) (args : List Json) :
    (m.call layer a args).2.keptBy layer a = (a.call args (m.keptBy layer a)).2 := by
  unfold call keptBy
  cases hchannel : a.channel? with
  | some channel => simp [keptFor]
  | none => exact (Accessor.call_kept hchannel args .nothing).symm

theorem keptBy_call_of_apart (args : List Json)
    (h : ∀ channel, a.channel? = some channel → b.channel? = some channel → other ≠ layer) :
    (m.call layer a args).2.keptBy other b = m.keptBy other b := by
  unfold call keptBy
  cases ha : a.channel? with
  | none => rfl
  | some mine =>
    cases hb : b.channel? with
    | none => rfl
    | some its =>
      have hapart : ((other, its) == (layer, mine)) = false := by
        rw [beq_eq_false_iff_ne]
        rintro heq
        obtain ⟨rfl, rfl⟩ := Prod.mk.inj heq
        exact h _ ha hb rfl
      simp [keptFor, List.lookup_cons, hapart]

end Memory

namespace Call

variable {layers : List LayerDescriptor} {c d : Call} {a b : Accessor}

/-- Whether two calls go to one layer, by one path or by aliases of one accessor. -/
def shares (c d : Call) : Bool :=
  c.layer == d.layer && (c.path == d.path ||
    aliases.any fun paths => paths.contains c.path && paths.contains d.path)

theorem shares_iff : c.shares d = true ↔
    c.layer = d.layer ∧ resolvedPath c.path = resolvedPath d.path := by
  simp [shares, Channels.resolvedPath_eq_iff]

def resolved (c : Call) : Call := { c with path := resolvedPath c.path }

theorem accessor?_eq_some_iff : c.accessor? layers = some a ↔
    ∃ layer, layers[c.layer]? = some layer ∧ Holds layer.props c.path a := by
  simp [accessor?, Option.bind_eq_some_iff, LayerDescriptor.accessorAt?_eq_some_iff]

variable (hplaced : ∀ layer ∈ layers, Placed layer.props)

include hplaced in
theorem accessor?_resolved (h : c.accessor? layers = some a) :
    c.resolved.accessor? layers = some a := by
  obtain ⟨layer, hlayer, hholds⟩ := accessor?_eq_some_iff.mp h
  have hback := ((hplaced layer (List.mem_of_getElem? hlayer)).back _ a hholds).2
  exact accessor?_eq_some_iff.mpr ⟨layer, hlayer, hback⟩

include hplaced in
theorem eq_of_shares (h : c.shares d = true) (hc : c.accessor? layers = some a)
    (hd : d.accessor? layers = some b) : b = a := by
  obtain ⟨hlayer, hpath⟩ := shares_iff.mp h
  have hsame : c.resolved.accessor? layers = d.resolved.accessor? layers := by
    simp [accessor?, resolved, hlayer, hpath]
  rw [accessor?_resolved hplaced hc, accessor?_resolved hplaced hd, Option.some.injEq] at hsame
  exact hsame.symm

include hplaced in
theorem shares_of_channel {channel : Channel} (hlayer : c.layer = d.layer)
    (hc : c.accessor? layers = some a) (hd : d.accessor? layers = some b)
    (ha : a.channel? = some channel) (hb : b.channel? = some channel) : c.shares d = true := by
  obtain ⟨layer, hfound, hholds⟩ := accessor?_eq_some_iff.mp hc
  obtain ⟨other, hother, hheld⟩ := accessor?_eq_some_iff.mp hd
  have hhome := ((hplaced layer (List.mem_of_getElem? hfound)).back _ a hholds).1 channel ha
  have hothers := ((hplaced other (List.mem_of_getElem? hother)).back _ b hheld).1 channel hb
  exact shares_iff.mpr ⟨hlayer, hhome.trans hothers.symm⟩

end Call

namespace Memory

variable {layers : List LayerDescriptor} {m n : Memory} {c d : Call} {a b : Accessor}

/-- Two memories that keep the same for the accessors that calls sharing with one reach. -/
def AgreeFor (layers : List LayerDescriptor) (c : Call) (m n : Memory) : Prop :=
  ∀ d a, c.shares d = true → d.accessor? layers = some a → m.keptBy d.layer a = n.keptBy d.layer a

variable (hplaced : ∀ layer ∈ layers, Placed layer.props)

include hplaced in
theorem AgreeFor.call_other (h : AgreeFor layers c m n) (hd : d.accessor? layers = some a)
    (hapart : c.shares d = false) : AgreeFor layers c (m.call d.layer a d.args).2 n := by
  intro e b hshares he
  rw [keptBy_call_of_apart, h e b hshares he]
  intro channel ha hb hlayer
  have hsame := Call.shares_of_channel hplaced hlayer he hd hb ha
  rw [Call.shares_iff] at hshares hsame
  have hshared : c.shares d = true :=
    Call.shares_iff.mpr ⟨hshares.1.trans hsame.1, hshares.2.trans hsame.2⟩
  rw [hapart] at hshared
  simp at hshared

include hplaced in
theorem AgreeFor.call_same (h : AgreeFor layers c m n) (hd : d.accessor? layers = some a)
    (hshares : c.shares d = true) :
    (m.call d.layer a d.args).1 = (n.call d.layer a d.args).1 ∧
    AgreeFor layers c (m.call d.layer a d.args).2 (n.call d.layer a d.args).2 := by
  refine ⟨by rw [call_fst, call_fst, h d a hshares hd], fun e b hothers he => ?_⟩
  have hde : d.shares e = true := by
    rw [Call.shares_iff] at hshares hothers ⊢
    exact ⟨hshares.1.symm.trans hothers.1, hshares.2.symm.trans hothers.2⟩
  obtain rfl := Call.eq_of_shares hplaced hde hd he
  rw [← (Call.shares_iff.mp hde).1, keptBy_call_self, keptBy_call_self, h d b hshares hd]

/-- The outcomes of those calls of a sequence that share with one. -/
def outcomesSharing (layers : List LayerDescriptor) (m : Memory) (c : Call) (calls : List Call) :
    List (Option (Result Json)) :=
  ((calls.zip (outcomes layers m calls)).filter fun entry => c.shares entry.1).map Prod.snd

include hplaced in
theorem outcomesSharing_eq (calls : List Call) (h : AgreeFor layers c m n) :
    outcomesSharing layers m c calls = outcomes layers n (calls.filter c.shares) := by
  induction calls generalizing m n with
  | nil => rfl
  | cons d rest ih =>
    cases hd : d.accessor? layers with
    | none =>
      have hrest := ih h
      cases hshares : c.shares d <;>
        simpa [outcomesSharing, outcomes, hd, hshares] using hrest
    | some a =>
      cases hshares : c.shares d with
      | false =>
        have hrest := ih (h.call_other hplaced hd hshares)
        simpa [outcomesSharing, outcomes, hd, hshares] using hrest
      | true =>
        obtain ⟨hvalue, hagree⟩ := h.call_same hplaced hd hshares
        have hrest := ih hagree
        simpa [outcomesSharing, outcomes, hd, hshares, hvalue] using hrest

include hplaced in
theorem outcomes_eq_of_shares {calls : List Call} (hc : c.accessor? layers = some a)
    (hcalls : ∀ d ∈ calls, c.shares d = true ∧ (d.accessor? layers).isSome = true) (m : Memory) :
    outcomes layers m calls =
      (a.outcomes (m.keptBy c.layer a) (calls.map Call.args)).map some := by
  induction calls generalizing m with
  | nil => rfl
  | cons d rest ih =>
    obtain ⟨hshares, hreaches⟩ := hcalls d (by simp)
    obtain ⟨b, hd⟩ := Option.isSome_iff_exists.mp hreaches
    obtain rfl := Call.eq_of_shares hplaced hshares hc hd
    have hrest := ih (fun e he => hcalls e (List.mem_cons_of_mem _ he)) (m.call d.layer b d.args).2
    have hlayer := (Call.shares_iff.mp hshares).1
    rw [hlayer, keptBy_call_self] at hrest
    simp only [outcomes, hd, hrest, call_fst, hlayer, List.map_cons, Accessor.outcomes]

end Memory

/-- How the calls that share with one stand in a sequence of calls. -/
structure CallsIsolated (layers : List LayerDescriptor) (calls : List Call) (c : Call) : Prop where
  alone : Memory.outcomesSharing layers [] c calls =
    Memory.outcomes layers [] (calls.filter c.shares)
  resolved : ∀ a, c.accessor? layers = some a → c.resolved.accessor? layers = some a
  same : ∀ a, c.accessor? layers = some a → ∀ d b, c.shares d = true →
    d.accessor? layers = some b → b = a
  single : ∀ a, c.accessor? layers = some a →
    (∀ d ∈ calls, (d.accessor? layers).isSome = true) →
    Memory.outcomesSharing layers [] c calls =
      (a.outcomes .nothing ((calls.filter c.shares).map Call.args)).map some

theorem CompiledMap.layers_placed {token : Json} {fields : Json.Fields} {whole : Compilation}
    (h : ofFields token fields = .ok whole) : ∀ layer ∈ whole.map.layers, Placed layer.props := by
  intro layer hlayer
  obtain ⟨entry, a, horigin⟩ := exists_origin h hlayer
  exact horigin.placed

/-- In whatever order the accessors of a compiled map are called, only calls whose paths lead back to one
prop of one layer share what is kept. -/
theorem CompiledMap.calls_isolated {token : Json} {fields : Json.Fields} {whole : Compilation}
    (h : ofFields token fields = .ok whole) (calls : List Call) (c : Call) :
    CallsIsolated whole.map.layers calls c := by
  have hplaced := layers_placed h
  have halone : Memory.outcomesSharing whole.map.layers [] c calls =
      Memory.outcomes whole.map.layers [] (calls.filter c.shares) :=
    Memory.outcomesSharing_eq hplaced calls fun _ _ _ _ => rfl
  refine ⟨halone, fun a hc => Call.accessor?_resolved hplaced hc,
    fun a hc d b hshares hd => Call.eq_of_shares hplaced hshares hc hd, fun a hc hcalls => ?_⟩
  have hnothing : Memory.keptBy [] c.layer a = .nothing := by
    unfold Memory.keptBy
    split <;> rfl
  rw [halone, Memory.outcomes_eq_of_shares hplaced hc _ [], hnothing]
  intro d hd
  rw [List.mem_filter] at hd
  exact ⟨hd.2, hcalls d hd.1⟩

namespace CompiledMap

/-- A document with a layer of labelled markers whose radius reads an aggregated column. -/
def markedDocument : Json.Fields :=
  [("datasets", .list [.object [("id", .text "d"), ("data", .list [])]]),
    ("keplerMapConfig", .object [("version", .text "v1"), ("config", .object [("visState", .object
      [("layers", .list [.object [("id", .text "a"), ("type", .text "point"),
        ("config", .object [("dataId", .text "d"),
          ("visConfig", .object
            [("customMarkers", .bool true), ("sizeAggregation", .text "sum")]),
          ("textLabel", .list [.object [("field", .object [("name", .text "t")])]])]),
        ("visualChannels", .object [("radiusField", .object [("name", .text "n")])])]])])])])]

/-- Calls of the radius under its three props, with one of the text between them. -/
def markedCalls : List Call :=
  [⟨0, ["getIconSize"], [.object [("n_sum", .int 3)]]⟩,
    ⟨0, ["getText"], [.object [("t", .text "x")]]⟩,
    ⟨0, ["getPointRadius"], [.object [("n", .int 5), ("n_sum", .int 4)]]⟩,
    ⟨0, ["_subLayerProps", "points-text", "getRadius"], [.object [("n", .int 6)]]⟩]

/-- The name that the size of the icons has settled on is kept by the radius and by the room of the
labels. -/
theorem calls_isolated_marked : ∃ whole, ofFields .null markedDocument = .ok whole ∧
    Memory.outcomesSharing whole.map.layers [] ⟨0, ["getPointRadius"], []⟩ markedCalls =
      [some (.ok (.int 3)), some (.ok (.int 4)), some (.ok .null)] ∧
    ∀ c, CallsIsolated whole.map.layers markedCalls c := by
  obtain ⟨whole, hwhole, houtcomes⟩ : ∃ whole, ofFields .null markedDocument = .ok whole ∧
      Memory.outcomesSharing whole.map.layers [] ⟨0, ["getPointRadius"], []⟩ markedCalls =
        [some (.ok (.int 3)), some (.ok (.int 4)), some (.ok .null)] := ⟨_, rfl, rfl⟩
  exact ⟨whole, hwhole, houtcomes, fun c => calls_isolated hwhole markedCalls c⟩

end CompiledMap

end MapLayers
