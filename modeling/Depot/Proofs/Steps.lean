/-!
# Steps that may fail

An operation is a sequence of steps, each of which may fail with an error. These lemmas open such
a sequence: a sequence that succeeds does so because every step did, and one that fails does so
because a first step did. The same is said of a step for each element of a list.

What is told of the errors of each step is told of the errors of the sequence (`ErrorsMeet`).

Two sequences end alike (`Alike`) if both fail with the same error or both succeed with related
results. They do so if each pair of their steps does.
-/

namespace Depot

variable {ε ε' α β : Type}

/-- A step that succeeds hands its result to what follows. -/
theorem bind_ok {step : Except ε α} {x : α} {next : α → Except ε β} {result : Except ε β}
    (hstep : step = .ok x) (hnext : next x = result) : (step >>= next) = result := by
  rw [hstep]
  exact hnext

/-- A step that fails ends the sequence. -/
theorem bind_error {step : Except ε α} {e : ε} {next : α → Except ε β}
    (hstep : step = .error e) : (step >>= next) = .error e := by
  rw [hstep]
  rfl

theorem bind_eq_ok {step : Except ε α} {next : α → Except ε β} {y : β}
    (h : (step >>= next) = .ok y) : ∃ x, step = .ok x ∧ next x = .ok y := by
  cases step with
  | error e => cases h
  | ok x => exact ⟨x, rfl, h⟩

theorem bind_eq_error {step : Except ε α} {next : α → Except ε β} {e : ε}
    (h : (step >>= next) = .error e) :
    step = .error e ∨ ∃ x, step = .ok x ∧ next x = .error e := by
  cases step with
  | error e' =>
    cases h
    exact .inl rfl
  | ok x => exact .inr ⟨x, rfl, h⟩

theorem mapError_eq_ok {f : ε → ε'} {step : Except ε α} {x : α}
    (h : step.mapError f = .ok x) : step = .ok x := by
  cases step with
  | error e => cases h
  | ok y =>
    cases h
    rfl

theorem mapError_eq_error {f : ε → ε'} {step : Except ε α} {e' : ε'}
    (h : step.mapError f = .error e') : ∃ e, step = .error e ∧ f e = e' := by
  cases step with
  | error e =>
    cases h
    exact ⟨e, rfl, rfl⟩
  | ok y => cases h

@[simp] theorem mapError_ok (f : ε → ε') (x : α) :
    (Except.ok x : Except ε α).mapError f = .ok x := rfl

@[simp] theorem mapError_error (f : ε → ε') (e : ε) :
    (Except.error e : Except ε α).mapError f = .error (f e) := rfl

/-! ## Steps over a list -/

theorem mapM_eq_ok {f : α → Except ε β} {l : List α} {g : α → β}
    (h : ∀ x ∈ l, f x = .ok (g x)) : l.mapM f = .ok (l.map g) := by
  induction l with
  | nil => rfl
  | cons a l ih =>
    rw [List.mapM_cons]
    exact bind_ok (h a List.mem_cons_self)
      (bind_ok (ih fun x hx => h x (List.mem_cons_of_mem a hx)) rfl)

/-- The first element that fails ends the steps. -/
theorem mapM_append_cons_eq_error {f : α → Except ε β} {l rest : List α} {a : α} {e : ε}
    (h : ∀ x ∈ l, ∃ y, f x = .ok y) (ha : f a = .error e) :
    (l ++ a :: rest).mapM f = .error e := by
  induction l with
  | nil =>
    rw [List.nil_append, List.mapM_cons]
    exact bind_error ha
  | cons b l ih =>
    obtain ⟨y, hy⟩ := h b List.mem_cons_self
    rw [List.cons_append, List.mapM_cons]
    exact bind_ok hy (bind_error (ih fun x hx => h x (List.mem_cons_of_mem b hx)))

theorem forall_of_mapM_eq_ok {f : α → Except ε β} {l : List α} {ys : List β}
    (h : l.mapM f = .ok ys) : ∀ x ∈ l, ∃ y, f x = .ok y := by
  induction l generalizing ys with
  | nil =>
    intro x hx
    cases hx
  | cons a l ih =>
    rw [List.mapM_cons] at h
    obtain ⟨b, hb, h⟩ := bind_eq_ok h
    obtain ⟨bs, hbs, -⟩ := bind_eq_ok h
    intro x hx
    rcases List.mem_cons.mp hx with rfl | hx
    · exact ⟨b, hb⟩
    · exact ih hbs x hx

/-- The steps succeed if each of them does. -/
theorem exists_mapM_eq_ok {f : α → Except ε β} {l : List α} (h : ∀ x ∈ l, ∃ y, f x = .ok y) :
    ∃ ys, l.mapM f = .ok ys := by
  induction l with
  | nil => exact ⟨[], rfl⟩
  | cons a l ih =>
    obtain ⟨b, hb⟩ := h a List.mem_cons_self
    obtain ⟨bs, hbs⟩ := ih fun x hx => h x (List.mem_cons_of_mem a hx)
    rw [List.mapM_cons]
    exact ⟨b :: bs, bind_ok hb (bind_ok hbs rfl)⟩

/-- The results are those of the elements. -/
theorem mem_of_mapM_eq_ok {f : α → Except ε β} {l : List α} {ys : List β}
    (h : l.mapM f = .ok ys) (y : β) : y ∈ ys ↔ ∃ x ∈ l, f x = .ok y := by
  induction l generalizing ys with
  | nil =>
    cases h
    simp
  | cons a l ih =>
    rw [List.mapM_cons] at h
    obtain ⟨b, hb, h⟩ := bind_eq_ok h
    obtain ⟨bs, hbs, h⟩ := bind_eq_ok h
    cases h
    simp only [List.mem_cons, exists_eq_or_imp, ih hbs, hb, Except.ok.injEq, eq_comm (a := y)]

/-- What is told of each result by its element is told of the whole list. -/
theorem map_of_mapM_eq_ok {γ : Type} {f : α → Except ε β} {g : β → γ} {k : α → γ} {l : List α}
    {ys : List β} (h : l.mapM f = .ok ys) (hg : ∀ x ∈ l, ∀ y, f x = .ok y → g y = k x) :
    ys.map g = l.map k := by
  induction l generalizing ys with
  | nil =>
    cases h
    rfl
  | cons a l ih =>
    rw [List.mapM_cons] at h
    obtain ⟨b, hb, h⟩ := bind_eq_ok h
    obtain ⟨bs, hbs, h⟩ := bind_eq_ok h
    cases h
    rw [List.map_cons, List.map_cons, hg a List.mem_cons_self b hb,
      ih hbs fun x hx => hg x (List.mem_cons_of_mem a hx)]

theorem exists_of_mapM_eq_error {f : α → Except ε β} {l : List α} {e : ε}
    (h : l.mapM f = .error e) : ∃ x ∈ l, f x = .error e := by
  induction l with
  | nil => cases h
  | cons a l ih =>
    rw [List.mapM_cons] at h
    rcases bind_eq_error h with ha | ⟨b, -, h⟩
    · exact ⟨a, List.mem_cons_self, ha⟩
    · rcases bind_eq_error h with hl | ⟨bs, -, h⟩
      · obtain ⟨x, hx, hfx⟩ := ih hl
        exact ⟨x, List.mem_cons_of_mem a hx, hfx⟩
      · cases h

/-- One step more of a fold. -/
theorem foldl_take_succ {f : β → α → β} {l : List α} {n : Nat} {a : α} (h : l[n]? = some a)
    (y : β) : (l.take (n + 1)).foldl f y = f ((l.take n).foldl f y) a := by
  rw [List.take_add_one, h, List.foldl_append]
  rfl

/-- Steps that hand a state on succeed if each of them does in every state. -/
theorem exists_foldlM_eq_ok {f : β → α → Except ε β} {l : List α}
    (h : ∀ y, ∀ x ∈ l, ∃ y', f y x = .ok y') (y : β) : ∃ y', l.foldlM f y = .ok y' := by
  induction l generalizing y with
  | nil => exact ⟨y, rfl⟩
  | cons a l ih =>
    obtain ⟨b, hb⟩ := h y a List.mem_cons_self
    obtain ⟨y', hy'⟩ := ih (fun z x hx => h z x (List.mem_cons_of_mem a hx)) b
    rw [List.foldlM_cons]
    exact ⟨y', bind_ok hb hy'⟩

theorem forM_eq_ok {f : α → Except ε Unit} {l : List α} :
    l.forM f = .ok () ↔ ∀ x ∈ l, f x = .ok () := by
  induction l with
  | nil => exact ⟨fun _ => by simp, fun _ => rfl⟩
  | cons a l ih =>
    rw [List.forall_mem_cons, ← ih]
    constructor
    · intro h
      obtain ⟨⟨⟩, ha, hl⟩ := bind_eq_ok h
      exact ⟨ha, hl⟩
    · intro ⟨ha, hl⟩
      exact bind_ok ha hl

theorem exists_of_forM_eq_error {f : α → Except ε Unit} {l : List α} {e : ε}
    (h : l.forM f = .error e) : ∃ x ∈ l, f x = .error e := by
  induction l with
  | nil => cases h
  | cons a l ih =>
    rcases bind_eq_error h with ha | ⟨-, -, hl⟩
    · exact ⟨a, List.mem_cons_self, ha⟩
    · obtain ⟨x, hx, hfx⟩ := ih hl
      exact ⟨x, List.mem_cons_of_mem a hx, hfx⟩

/-- The first element that fails ends the steps. -/
theorem forM_append_cons_eq_error {f : α → Except ε Unit} {l rest : List α} {a : α} {e : ε}
    (h : ∀ x ∈ l, f x = .ok ()) (ha : f a = .error e) : (l ++ a :: rest).forM f = .error e := by
  induction l with
  | nil => exact bind_error ha
  | cons b l ih =>
    exact bind_ok (h b List.mem_cons_self) (ih fun x hx => h x (List.mem_cons_of_mem b hx))

/-! ## What errors tell -/

section ErrorsMeet

variable {ζ : Type} {P : ζ → Prop} {wrap : ε → ζ}

/-- If the step fails, its error has the property `P`, once it is `wrap`ped as an error of a layer
above. -/
def ErrorsMeet (P : ζ → Prop) (wrap : ε → ζ) (step : Except ε α) : Prop :=
  ∀ e, step = .error e → P (wrap e)

theorem errorsMeet_ok (x : α) : ErrorsMeet P wrap (.ok x) := by
  intro e h
  cases h

theorem errorsMeet_error {e : ε} (h : P (wrap e)) : ErrorsMeet (α := α) P wrap (.error e) := by
  intro e' he'
  cases he'
  exact h

theorem ErrorsMeet.bind {step : Except ε α} {next : α → Except ε β} (h : ErrorsMeet P wrap step)
    (hnext : ∀ x, step = .ok x → ErrorsMeet P wrap (next x)) :
    ErrorsMeet P wrap (step >>= next) := by
  intro e he
  rcases bind_eq_error he with hstep | ⟨x, hx, hstep⟩
  · exact h e hstep
  · exact hnext x hx e hstep

theorem ErrorsMeet.lift {step : Except ε α} (h : ErrorsMeet P wrap step) :
    ErrorsMeet P (·) (step.mapError wrap) := by
  intro e he
  obtain ⟨e, hstep, rfl⟩ := mapError_eq_error he
  exact h e hstep

theorem ErrorsMeet.map {step : Except ε α} (h : ErrorsMeet P wrap step) (f : α → β) :
    ErrorsMeet P wrap (step.map f) := by
  cases step with
  | error e => exact errorsMeet_error (h e rfl)
  | ok x => exact errorsMeet_ok _

theorem ErrorsMeet.forM {f : α → Except ε Unit} {l : List α}
    (h : ∀ x ∈ l, ErrorsMeet P wrap (f x)) : ErrorsMeet P wrap (l.forM f) := by
  intro e he
  obtain ⟨x, hx, hfx⟩ := exists_of_forM_eq_error he
  exact h x hx e hfx

theorem ErrorsMeet.mapM {f : α → Except ε β} {l : List α}
    (h : ∀ x ∈ l, ErrorsMeet P wrap (f x)) : ErrorsMeet P wrap (l.mapM f) := by
  intro e he
  obtain ⟨x, hx, hfx⟩ := exists_of_mapM_eq_error he
  exact h x hx e hfx

/-- Steps that hand a state on, each of them keeping the invariant. -/
theorem ErrorsMeet.foldlM {f : β → α → Except ε β} {l : List α} {I : β → Prop}
    (h : ∀ y, I y → ∀ x ∈ l, ErrorsMeet P wrap (f y x))
    (hkeep : ∀ y, I y → ∀ x ∈ l, ∀ y', f y x = .ok y' → I y') {y : β} (hy : I y) :
    ErrorsMeet P wrap (l.foldlM f y) := by
  induction l generalizing y with
  | nil => exact errorsMeet_ok y
  | cons a l ih =>
    rw [List.foldlM_cons]
    refine (h y hy a List.mem_cons_self).bind fun y' hy' => ?_
    exact ih (fun z hz x hx => h z hz x (List.mem_cons_of_mem a hx))
      (fun z hz x hx => hkeep z hz x (List.mem_cons_of_mem a hx))
      (hkeep y hy a List.mem_cons_self y' hy')

end ErrorsMeet

/-! ## Steps that end alike -/

/-- Both steps fail with the same error, or both succeed with related results. -/
inductive Alike (R : α → β → Prop) : Except ε α → Except ε β → Prop
  | ok {x : α} {y : β} (h : R x y) : Alike R (.ok x) (.ok y)
  | error (e : ε) : Alike R (.error e) (.error e)

theorem alike_of_eq {s t : Except ε α} (h : s = t) : Alike Eq s t := by
  subst h
  cases s with
  | error e => exact .error e
  | ok x => exact .ok rfl

section Alike

variable {γ δ : Type} {R : α → β → Prop} {s : Except ε α} {t : Except ε β}

theorem Alike.bind {S : γ → δ → Prop} {f : α → Except ε γ} {g : β → Except ε δ}
    (h : Alike R s t) (hnext : ∀ x y, R x y → Alike S (f x) (g y)) :
    Alike S (s >>= f) (t >>= g) := by
  cases h with
  | error e => exact .error e
  | ok h => exact hnext _ _ h

theorem Alike.mapError (h : Alike R s t) (f : ε → ε') :
    Alike R (s.mapError f) (t.mapError f) := by
  cases h with
  | error e => exact .error (f e)
  | ok h => exact .ok h

theorem Alike.mono {S : α → β → Prop} (h : Alike R s t) (hRS : ∀ x y, R x y → S x y) :
    Alike S s t := by
  cases h with
  | error e => exact .error e
  | ok h => exact .ok (hRS _ _ h)

theorem Alike.eq {s t : Except ε α} (h : Alike Eq s t) : s = t := by
  cases h with
  | error e => rfl
  | ok h => rw [h]

theorem alike_forM {f g : α → Except ε Unit} {l : List α}
    (h : ∀ x ∈ l, Alike Eq (f x) (g x)) : Alike Eq (l.forM f) (l.forM g) := by
  induction l with
  | nil => exact .ok rfl
  | cons a l ih =>
    exact (h a List.mem_cons_self).bind fun _ _ _ => ih fun x hx => h x (List.mem_cons_of_mem a hx)

/-- What is the same of each pair of results is the same of the lists. -/
theorem alike_mapM (k : γ → δ) {f g : α → Except ε γ} {l : List α}
    (h : ∀ x ∈ l, Alike (fun y z => k y = k z) (f x) (g x)) :
    Alike (fun ys zs => ys.map k = zs.map k) (l.mapM f) (l.mapM g) := by
  induction l with
  | nil => exact .ok rfl
  | cons a l ih =>
    rw [List.mapM_cons, List.mapM_cons]
    refine (h a List.mem_cons_self).bind fun y z hyz => ?_
    refine (ih fun x hx => h x (List.mem_cons_of_mem a hx)).bind fun ys zs hall => ?_
    refine .ok ?_
    rw [List.map_cons, List.map_cons, hyz, hall]

theorem alike_foldlM {f : α → γ → Except ε α} {g : β → γ → Except ε β} {l : List γ}
    (h : ∀ x y, R x y → ∀ c ∈ l, Alike R (f x c) (g y c)) {x : α} {y : β} (hxy : R x y) :
    Alike R (l.foldlM f x) (l.foldlM g y) := by
  induction l generalizing x y with
  | nil => exact .ok hxy
  | cons c l ih =>
    rw [List.foldlM_cons, List.foldlM_cons]
    refine (h x y hxy c List.mem_cons_self).bind fun x' y' hxy' => ?_
    exact ih (fun x y hxy c hc => h x y hxy c (List.mem_cons_of_mem _ hc)) hxy'

end Alike

end Depot
