import MapLayers.Fault

/-!
# Steps that succeed

What a successful computation says about its steps. A sequence of steps succeeds exactly when each
of them does, so a result of a long computation opens into the results of its parts.
-/

namespace MapLayers.Result

variable {ε α β : Type}

@[simp] theorem bind_eq_ok_iff {x : Except ε α} {f : α → Except ε β} {b : β} :
    (x >>= f) = .ok b ↔ ∃ a, x = .ok a ∧ f a = .ok b := by
  cases x <;> simp [bind, Except.bind]

@[simp] theorem method_bind_eq_ok_iff {x : Result α} {f : α → Result β} {b : β} :
    x.bind f = .ok b ↔ ∃ a, x = .ok a ∧ f a = .ok b := bind_eq_ok_iff

@[simp] theorem pure_eq_ok_iff {a b : α} : (pure a : Except ε α) = .ok b ↔ a = b := by
  simp [pure, Except.pure]

@[simp] theorem throw_not_ok {fault : ε} {a : α} : (throw fault : Except ε α) ≠ .ok a := by
  simp [throw, throwThe, MonadExceptOf.throw]

@[simp] theorem map_eq_ok_iff {x : Result α} {f : α → β} {b : β} :
    x.map f = .ok b ↔ ∃ a, x = .ok a ∧ f a = b := by
  cases x <;> simp [Except.map]

@[simp] theorem ok_bind {a : α} {f : α → Result β} : ((.ok a : Result α) >>= f) = f a := rfl

theorem eq_ok_of_toOption {x : Except ε α} {a : α} (h : x.toOption = some a) : x = .ok a := by
  cases x with
  | ok b => rw [Option.some.inj h]
  | error fault => simp [Except.toOption] at h

theorem toOption_eq_some_iff {x : Except ε α} {a : α} : x.toOption = some a ↔ x = .ok a :=
  ⟨eq_ok_of_toOption, fun h => by rw [h]; rfl⟩

@[simp] theorem toOption_bind {x : Result α} {f : α → Result β} :
    (x >>= f).toOption = x.toOption.bind fun a => (f a).toOption := by
  cases x <;> rfl

theorem toOption_map {x : Result α} {f : α → β} : (x.map f).toOption = x.toOption.map f := by
  cases x <;> rfl

@[simp] theorem toOption_pure (a : α) : (pure a : Result α).toOption = some a := rfl

@[simp] theorem toOption_error (fault : Fault) : (.error fault : Result α).toOption = none := rfl

@[simp] theorem toOption_ok (a : α) : (.ok a : Result α).toOption = some a := rfl

theorem bind_eq_error_iff {x : Result α} {f : α → Result β} {fault : Fault} :
    (x >>= f) = .error fault ↔ x = .error fault ∨ ∃ a, x = .ok a ∧ f a = .error fault := by
  cases x <;> simp [bind, Except.bind]

@[simp] theorem pure_not_error {a : α} {fault : Fault} : (pure a : Result α) ≠ .error fault := by
  simp [pure, Except.pure]

/-- A run of steps keeps what each of them keeps. -/
theorem foldlM_induction {step : β → α → Result β} {motive : β → Prop} {xs : List α}
    {start finish : β} (hstep : ∀ x ∈ xs, ∀ b c, step b x = .ok c → motive b → motive c)
    (hstart : motive start) (h : xs.foldlM step start = .ok finish) : motive finish := by
  induction xs generalizing start with
  | nil =>
    rw [List.foldlM_nil, pure_eq_ok_iff] at h
    exact h ▸ hstart
  | cons x xs ih =>
    rw [List.foldlM_cons, bind_eq_ok_iff] at h
    obtain ⟨next, hnext, h⟩ := h
    have hmotive : motive next := hstep x (by simp) start next hnext hstart
    exact ih (fun y hy => hstep y (List.mem_cons_of_mem x hy)) hmotive h

variable {γ : Type}

/-- The computation gives a value. -/
def Succeeds (r : Result α) : Prop := ∃ a, r = .ok a

@[simp] theorem succeeds_ok (a : α) : Succeeds (.ok a) := ⟨a, rfl⟩

@[simp] theorem succeeds_pure (a : α) : Succeeds (pure a : Result α) := ⟨a, rfl⟩

@[simp] theorem not_succeeds_error (fault : Fault) : ¬Succeeds (.error fault : Result α) := by
  simp [Succeeds]

theorem isOk_iff {r : Result α} : r.isOk = true ↔ Succeeds r := by
  cases r <;> simp [Except.isOk, Except.toBool]

theorem succeeds_bind {x : Result α} {f : α → Result β} :
    Succeeds (x >>= f) ↔ ∃ a, x = .ok a ∧ Succeeds (f a) := by
  cases x <;> simp [Succeeds, bind, Except.bind]

@[simp] theorem succeeds_map {x : Result α} {f : α → β} : Succeeds (x.map f) ↔ Succeeds x := by
  cases x <;> simp [Except.map]

@[simp] theorem succeeds_functor_map {x : Result α} {f : α → β} :
    Succeeds (f <$> x) ↔ Succeeds x := succeeds_map

/-- A computation whose rest succeeds or fails whatever its first part gives. -/
theorem succeeds_bind_iff {x : Result α} {f : α → Result β} {p : Prop}
    (h : ∀ a, Succeeds (f a) ↔ p) : Succeeds (x >>= f) ↔ Succeeds x ∧ p := by
  cases x <;> simp [bind, Except.bind, h]

/-- A computation whose rest always succeeds. -/
theorem succeeds_bind_left {x : Result α} {f : α → Result β} (h : ∀ a, Succeeds (f a)) :
    Succeeds (x >>= f) ↔ Succeeds x := by
  rw [succeeds_bind_iff fun a => iff_true_intro (h a), and_true]

theorem Succeeds.bind {x : Result α} {f : α → Result β} (hx : Succeeds x)
    (hf : ∀ a, Succeeds (f a)) : Succeeds (x >>= f) :=
  (succeeds_bind_left hf).mpr hx

theorem exists_mapM_iff {f : α → Result β} {p : β → Prop} {xs : List α} :
    (∃ ys, xs.mapM f = .ok ys ∧ ∀ y ∈ ys, p y) ↔ ∀ x ∈ xs, ∃ y, f x = .ok y ∧ p y := by
  induction xs with
  | nil => simp
  | cons x rest ih =>
    rw [List.forall_mem_cons, ← ih]
    simp only [List.mapM_cons, bind_eq_ok_iff, pure_eq_ok_iff]
    constructor
    · rintro ⟨_, ⟨y, hy, ys, hys, rfl⟩, hall⟩
      obtain ⟨hfirst, hrest⟩ := List.forall_mem_cons.mp hall
      exact ⟨⟨y, hy, hfirst⟩, ys, hys, hrest⟩
    · rintro ⟨⟨y, hy, hfirst⟩, ys, hys, hrest⟩
      exact ⟨y :: ys, ⟨y, hy, ys, hys, rfl⟩, List.forall_mem_cons.mpr ⟨hfirst, hrest⟩⟩

theorem mapM_congr {f g : α → Result β} {xs : List α} (h : ∀ x ∈ xs, f x = g x) :
    xs.mapM f = xs.mapM g := by
  induction xs with
  | nil => rfl
  | cons x rest ih =>
    obtain ⟨hx, hrest⟩ := List.forall_mem_cons.mp h
    rw [List.mapM_cons, List.mapM_cons, hx, ih hrest]

theorem mapM_eq_ok_map {f : α → Result β} {g : α → β} {xs : List α} (h : ∀ x ∈ xs, f x = .ok (g x)) :
    xs.mapM f = .ok (xs.map g) := by
  rw [mapM_congr h]
  exact List.mapM_pure

theorem length_of_mapM {f : α → Result β} {xs : List α} {ys : List β} (h : xs.mapM f = .ok ys) :
    ys.length = xs.length := by
  induction xs generalizing ys with
  | nil =>
    obtain rfl : [] = ys := Except.ok.inj h
    rfl
  | cons x rest ih =>
    simp only [List.mapM_cons, bind_eq_ok_iff, pure_eq_ok_iff] at h
    obtain ⟨y, -, others, hothers, rfl⟩ := h
    rw [List.length_cons, List.length_cons, ih hothers]

/-- Values in another order have the same results in that order. -/
theorem mapM_perm {f : α → Result β} {xs xs' : List α} (h : xs.Perm xs') {ys : List β}
    (hys : xs.mapM f = .ok ys) : ∃ ys', xs'.mapM f = .ok ys' ∧ ys.Perm ys' := by
  induction h generalizing ys with
  | nil => exact ⟨ys, hys, .refl _⟩
  | cons x _ ih =>
    simp only [List.mapM_cons, bind_eq_ok_iff, pure_eq_ok_iff] at hys ⊢
    obtain ⟨y, hy, rest, hrest, rfl⟩ := hys
    obtain ⟨rest', hrest', hperm⟩ := ih hrest
    exact ⟨y :: rest', ⟨y, hy, rest', hrest', rfl⟩, hperm.cons y⟩
  | swap x y _ =>
    simp only [List.mapM_cons, bind_eq_ok_iff, pure_eq_ok_iff] at hys ⊢
    obtain ⟨b, hb, _, ⟨a, ha, rest, hrest, rfl⟩, rfl⟩ := hys
    exact ⟨a :: b :: rest, ⟨a, ha, _, ⟨b, hb, rest, hrest, rfl⟩, rfl⟩, .swap a b rest⟩
  | trans _ _ ih ih' =>
    obtain ⟨middle, hmiddle, hfirst⟩ := ih hys
    obtain ⟨last, hlast, hsecond⟩ := ih' hmiddle
    exact ⟨last, hlast, hfirst.trans hsecond⟩

theorem succeeds_mapM {f : α → Result β} {xs : List α} :
    Succeeds (xs.mapM f) ↔ ∀ x ∈ xs, Succeeds (f x) := by
  have hall : (∃ ys, xs.mapM f = .ok ys ∧ ∀ y ∈ ys, True) ↔ ∀ x ∈ xs, ∃ y, f x = .ok y ∧ True :=
    exists_mapM_iff
  simpa [Succeeds] using hall

/-- A run of steps succeeds exactly if each of them does, where that depends on no other. -/
theorem succeeds_foldlM {step : β → α → Result β} {p : α → Prop} {xs : List α} {start : β}
    (h : ∀ x ∈ xs, ∀ b, Succeeds (step b x) ↔ p x) :
    Succeeds (xs.foldlM step start) ↔ ∀ x ∈ xs, p x := by
  induction xs generalizing start with
  | nil => simp
  | cons x rest ih =>
    obtain ⟨hx, hrest⟩ := List.forall_mem_cons.mp h
    rw [List.foldlM_cons, succeeds_bind_iff fun b => ih hrest, hx start, List.forall_mem_cons]

theorem forM_cons (f : α → Result Unit) (x : α) (xs : List α) :
    (x :: xs).forM f = f x >>= fun _ => xs.forM f := rfl

theorem forM_eq_ok_iff {f : α → Result Unit} {xs : List α} :
    xs.forM f = .ok () ↔ ∀ x ∈ xs, f x = .ok () := by
  induction xs with
  | nil => simp [List.forM]
  | cons x rest ih =>
    rw [forM_cons, bind_eq_ok_iff, List.forall_mem_cons, ← ih]
    constructor
    · rintro ⟨⟨⟩, hx, hrest⟩
      exact ⟨hx, hrest⟩
    · rintro ⟨hx, hrest⟩
      exact ⟨(), hx, hrest⟩

variable {p : Fault → Prop}

/-- Whatever makes the computation fail is as the condition says. -/
def FailsOnly (p : Fault → Prop) (r : Result α) : Prop := ∀ fault, r = .error fault → p fault

@[simp] theorem failsOnly_ok (a : α) : FailsOnly p (.ok a) := by
  simp [FailsOnly]

@[simp] theorem failsOnly_pure (a : α) : FailsOnly p (pure a : Result α) := failsOnly_ok a

@[simp] theorem failsOnly_error {fault : Fault} :
    FailsOnly p (.error fault : Result α) ↔ p fault := by
  simp [FailsOnly]

@[simp] theorem failsOnly_throw {fault : Fault} :
    FailsOnly p (throw fault : Result α) ↔ p fault := failsOnly_error

@[simp] theorem failsOnly_bind {x : Result α} {f : α → Result β} :
    FailsOnly p (x >>= f) ↔ FailsOnly p x ∧ ∀ a, x = .ok a → FailsOnly p (f a) := by
  cases x <;> simp [bind, Except.bind]

@[simp] theorem failsOnly_method_bind {x : Result α} {f : α → Result β} :
    FailsOnly p (x.bind f) ↔ FailsOnly p x ∧ ∀ a, x = .ok a → FailsOnly p (f a) := failsOnly_bind

@[simp] theorem failsOnly_map {x : Result α} {f : α → β} :
    FailsOnly p (x.map f) ↔ FailsOnly p x := by
  cases x <;> simp [Except.map]

@[simp] theorem failsOnly_functor_map {x : Result α} {f : α → β} :
    FailsOnly p (f <$> x) ↔ FailsOnly p x := failsOnly_map

@[simp] theorem failsOnly_ite {c : Prop} [Decidable c] {x y : Result α} :
    FailsOnly p (if c then x else y) ↔ (c → FailsOnly p x) ∧ (¬c → FailsOnly p y) := by
  split <;> simp_all

theorem failsOnly_mapM {f : α → Result β} (h : ∀ a, FailsOnly p (f a)) (xs : List α) :
    FailsOnly p (xs.mapM f) := by
  induction xs with
  | nil => simp
  | cons x rest ih => simp [h, ih]

theorem failsOnly_foldlM {step : β → α → Result β} (h : ∀ b a, FailsOnly p (step b a))
    (xs : List α) (start : β) : FailsOnly p (xs.foldlM step start) := by
  induction xs generalizing start with
  | nil => simp
  | cons x rest ih => simp [h, ih]

theorem failsOnly_forM {f : α → Result Unit} {xs : List α} (h : ∀ x ∈ xs, FailsOnly p (f x)) :
    FailsOnly p (xs.forM f) := by
  induction xs with
  | nil => simp [List.forM]
  | cons x rest ih =>
    obtain ⟨hx, hrest⟩ := List.forall_mem_cons.mp h
    rw [forM_cons, failsOnly_bind]
    exact ⟨hx, fun _ _ => ih hrest⟩

theorem FailsOnly.imp {q : Fault → Prop} {r : Result α} (h : FailsOnly p r)
    (himp : ∀ fault, p fault → q fault) : FailsOnly q r :=
  fun fault hfault => himp fault (h fault hfault)

/-- The computation fails, and by a fault of the given class. -/
def failsBy (kind : FaultClass) : Result α → Bool
  | .ok _ => false
  | .error fault => fault.kind = kind

end MapLayers.Result
