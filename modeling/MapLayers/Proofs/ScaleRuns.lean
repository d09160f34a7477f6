import MapLayers.Proofs.Results
import MapLayers.Scale

/-!
# Runs of a scale

A scale remembers nothing but what it is set to. The breaks that a quantile scale keeps are those of its
domain and its range, because every request that could change these drops them, even if it fails. So in
any run of requests a call comes out as that of a new scale of the same kind and settings.
-/

namespace MapLayers.Scale

/-- What a scale is set to. -/
structure Setup where
  domain : List Json
  range : List Json
  unknown : Json

def setup (s : Scale) : Setup := ⟨s.domain, s.range, s.unknown⟩

namespace Setup

/-- A new scale that is given the settings directly. -/
def scale (t : Setup) (kind : ScaleKind) : Scale :=
  (((new kind).withDomain t.domain).withRange t.range).withUnknown t.unknown

/-- One request to a scale that is made anew for every call. -/
def step (kind : ScaleKind) (t : Setup) : Request → Setup × Result (Option Json)
  | .setDomain values =>
    match values.elements with
    | .ok entries => ({ t with domain := entries }, .ok none)
    | .error fault => (t, .error fault)
  | .setRange values =>
    match rangeEntries values with
    | .ok entries => ({ t with range := entries }, .ok none)
    | .error fault => (t, .error fault)
  | .setUnknown value => ({ t with unknown := value }, .ok none)
  | .call input => (t, ((t.scale kind).value input).map some)

def outcomes (kind : ScaleKind) (t : Setup) : List Request → List (Result (Option Json))
  | [] => []
  | request :: rest => (t.step kind request).2 :: outcomes kind (t.step kind request).1 rest

end Setup

/-- The scale after some requests. -/
def after (s : Scale) (requests : List Request) : Scale :=
  requests.foldl (fun s request => (s.step request).1) s

/-- The outcomes of requests one after the other. -/
def outcomes (s : Scale) : List Request → List (Result (Option Json))
  | [] => []
  | request :: rest => (s.step request).2 :: outcomes (s.step request).1 rest

/-- The breaks that are kept, if any, are those of the domain and the range. -/
def Coherent (s : Scale) : Prop :=
  ∀ kept, s.keptBreaks = some kept → quantileBreaks s.domain s.range.length = .ok kept

theorem coherent_of_none {s : Scale} (h : s.keptBreaks = none) : s.Coherent := by
  intro kept hkept
  rw [h] at hkept
  simp at hkept

variable {s : Scale}

theorem Coherent.breaks_eq (h : s.Coherent) : s.breaks = quantileBreaks s.domain s.range.length := by
  unfold breaks
  split
  · next kept hkept => exact (h kept hkept).symm
  · rfl

theorem setup_scale (s : Scale) : s.setup.scale s.kind = s.keeping none := rfl

theorem value_keeping {kept : Option (List Number)} (h : (s.keeping kept).breaks = s.breaks)
    (input : Json) : (s.keeping kept).value input = s.value input := by
  have hbucket : ∀ n, (s.keeping kept).bucket n = s.bucket n := by
    intro n
    unfold bucket
    rw [h]
    rfl
  have hvalue : (s.keeping kept).bucketValue input = s.bucketValue input := by
    unfold bucketValue
    simp only [hbucket]
    rfl
  unfold value
  rw [hvalue]
  rfl

theorem Coherent.value_eq (h : s.Coherent) (input : Json) :
    s.value input = (s.setup.scale s.kind).value input := by
  rw [setup_scale, value_keeping ?_ input]
  exact h.breaks_eq.symm

theorem afterCall_cases (s : Scale) (input : Json) : s.afterCall input = s ∨
    s.afterCall input = { s with keptBreaks := s.breaks.toOption } := by
  unfold afterCall
  split
  · split
    · exact .inl rfl
    · exact .inr rfl
  · exact .inl rfl

theorem Coherent.afterCall (h : s.Coherent) (input : Json) : (s.afterCall input).Coherent := by
  rcases s.afterCall_cases input with hsame | hkeeps
  · rw [hsame]
    exact h
  · rw [hkeeps]
    intro kept hkept
    rw [← Result.eq_ok_of_toOption hkept]
    exact h.breaks_eq.symm

theorem afterCall_setup (s : Scale) (input : Json) :
    (s.afterCall input).setup = s.setup ∧ (s.afterCall input).kind = s.kind := by
  rcases s.afterCall_cases input with hsame | hkeeps
  · rw [hsame]
    exact ⟨rfl, rfl⟩
  · rw [hkeeps]
    exact ⟨rfl, rfl⟩

@[simp] theorem keeping_keeping (s : Scale) (first second : Option (List Number)) :
    (s.keeping first).keeping second = s.keeping second := rfl

theorem keeping_afterCall (s : Scale) (input : Json) :
    s.keeping (s.afterCall input).keptBreaks = s.afterCall input := by
  rcases s.afterCall_cases input with hsame | hkeeps
  · rw [hsame]
    rfl
  · rw [hkeeps]
    rfl

/-- How a scale goes through a request as one would that is made anew for every call. -/
structure StepsAlike (s : Scale) (request : Request) : Prop where
  outcome : (s.step request).2 = (s.setup.step s.kind request).2
  setup : (s.step request).1.setup = (s.setup.step s.kind request).1
  kind : (s.step request).1.kind = s.kind
  coherent : (s.step request).1.Coherent

theorem Coherent.stepsAlike (h : s.Coherent) (request : Request) : StepsAlike s request := by
  cases request with
  -- A request that fails drops the kept breaks as well.
  | setDomain values =>
    refine ⟨?_, ?_, ?_, coherent_of_none ?_⟩ <;> simp only [step, Setup.step] <;>
      cases values.elements <;> rfl
  | setRange values =>
    refine ⟨?_, ?_, ?_, coherent_of_none ?_⟩ <;> simp only [step, Setup.step] <;>
      cases rangeEntries values <;> rfl
  | setUnknown value => exact ⟨rfl, rfl, rfl, h⟩
  | call input =>
    obtain ⟨hsetup, hkind⟩ := s.afterCall_setup input
    refine ⟨?_, hsetup, hkind, h.afterCall input⟩
    simp only [step, Setup.step, h.value_eq input]

theorem Coherent.outcomes_eq (h : s.Coherent) (requests : List Request) :
    s.outcomes requests = s.setup.outcomes s.kind requests := by
  induction requests generalizing s with
  | nil => rfl
  | cons request rest ih =>
    have hstep := h.stepsAlike request
    rw [outcomes, Setup.outcomes, hstep.outcome, ih hstep.coherent, hstep.setup, hstep.kind]

theorem Coherent.after (h : s.Coherent) (requests : List Request) :
    (s.after requests).Coherent ∧ (s.after requests).kind = s.kind := by
  induction requests generalizing s with
  | nil => exact ⟨h, rfl⟩
  | cons request rest ih =>
    have hstep := h.stepsAlike request
    obtain ⟨hcoherent, hkind⟩ := ih hstep.coherent
    exact ⟨hcoherent, hkind.trans hstep.kind⟩

theorem setup_step_of_error {request : Request} {fault : Fault}
    (h : (s.step request).2 = .error fault) : (s.step request).1.setup = s.setup := by
  cases request with
  | setDomain values => cases helements : values.elements <;> simp_all [step, setup]
  | setRange values => cases helements : rangeEntries values <;> simp_all [step, setup]
  | setUnknown value => simp [step] at h
  | call input => exact (s.afterCall_setup input).1

/-- How the requests of a run come out that remembers nothing but the settings. -/
structure Memoryless (kind : ScaleKind) (requests : List Request) : Prop where
  outcomes : (new kind).outcomes requests = (new kind).setup.outcomes kind requests
  settings : ∀ request fault, (((new kind).after requests).step request).2 = .error fault →
    (((new kind).after requests).step request).1.setup = ((new kind).after requests).setup
  calls : ∀ input, (((new kind).after requests).step (.call input)).2 =
    ((((new kind).after requests).setup.scale kind).step (.call input)).2

/-- A scale has no memory beyond its settings: whatever has been requested of it, a failing request
leaves them as they are, and a call comes out as that of a new scale with these settings. -/
theorem run_memoryless (kind : ScaleKind) (requests : List Request) : Memoryless kind requests := by
  have hnew : (new kind).Coherent := coherent_of_none rfl
  obtain ⟨hafter, hkind⟩ := hnew.after requests
  refine ⟨hnew.outcomes_eq requests, fun request fault h => setup_step_of_error h, fun input => ?_⟩
  have hvalue := hafter.value_eq input
  rw [hkind] at hvalue
  simp only [step, hvalue]
  rfl

end MapLayers.Scale
