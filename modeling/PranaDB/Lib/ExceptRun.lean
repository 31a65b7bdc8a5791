import Mathlib

/-! # Reasoning about runs in the `Except` monad

A computation in `Except` that succeeded is taken apart one bind at a time:
`bind_eq_ok` turns a successful `x >>= f` into a successful `x` and a
successful continuation. A loop written as `List.foldlM` keeps an invariant
when each step does (`foldlM_invariant`). Two runs that agree once part of
their results is forgotten (`x.map f = y.map g`) fail alike or succeed alike
(`map_eq_map`), and two folds whose steps agree so agree (`foldlM_map_congr`).
-/

namespace ExceptRun
set_option autoImplicit false

variable {ε α β σ : Type}

@[simp] theorem bind_eq_ok {x : Except ε α} {f : α → Except ε β} {c : β} :
    x >>= f = .ok c ↔ ∃ b, x = .ok b ∧ f b = .ok c := by
  cases x <;> simp [Bind.bind, Except.bind]

@[simp] theorem ok_bind (a : α) (f : α → Except ε β) : (Except.ok a : Except ε α) >>= f = f a := rfl

@[simp] theorem pure_eq_ok {a c : α} : (pure a : Except ε α) = .ok c ↔ a = c := by
  simp [pure, Except.pure]

@[simp] theorem throw_eq_ok {e : ε} {c : α} : (throw e : Except ε α) = .ok c ↔ False := by
  simp [throw, throwThe, MonadExceptOf.throw]

@[simp] theorem map_eq_ok {x : Except ε α} {f : α → β} {c : β} :
    f <$> x = .ok c ↔ ∃ a, x = .ok a ∧ f a = c := by
  cases x <;> simp [Functor.map, Except.map]

theorem length_of_mapM_ok {f : α → Except ε β} :
    ∀ {l : List α} {l' : List β}, l.mapM f = .ok l' → l'.length = l.length
  | [], l', h => by
    rw [List.mapM_nil, pure_eq_ok] at h
    rw [← h]
    rfl
  | a :: l, l', h => by
    rw [List.mapM_cons, bind_eq_ok] at h
    obtain ⟨b, -, h⟩ := h
    rw [bind_eq_ok] at h
    obtain ⟨bs, hbs, h⟩ := h
    rw [pure_eq_ok] at h
    rw [← h, List.length_cons, List.length_cons, length_of_mapM_ok hbs]

theorem mapM_append_of_ok {f : α → Except ε β} {l₁ : List α} {b₁ : List β} (h : l₁.mapM f = .ok b₁)
    (l₂ : List α) : (l₁ ++ l₂).mapM f = (l₂.mapM f).map (b₁ ++ ·) := by
  rw [List.mapM_append, h, ok_bind]
  cases l₂.mapM f <;> rfl

theorem mapM_append_of_error {f : α → Except ε β} {l₁ : List α} {e : ε} (h : l₁.mapM f = .error e)
    (l₂ : List α) : (l₁ ++ l₂).mapM f = .error e := by
  rw [List.mapM_append, h]
  rfl

theorem map_mapError {ε' γ : Type} (f : ε → ε') (g : α → γ) (x : Except ε α) :
    (x.mapError f).map g = (x.map g).mapError f := by
  cases x <;> rfl

theorem exists_of_mem_mapM_ok {f : α → Except ε β} :
    ∀ {l : List α} {l' : List β}, l.mapM f = .ok l' → ∀ b ∈ l', ∃ a ∈ l, f a = .ok b
  | [], l', h, b, hb => by
    rw [List.mapM_nil, pure_eq_ok] at h
    rw [← h] at hb
    exact absurd hb List.not_mem_nil
  | a :: l, l', h, b, hb => by
    rw [List.mapM_cons, bind_eq_ok] at h
    obtain ⟨b₀, hHead, h⟩ := h
    rw [bind_eq_ok] at h
    obtain ⟨bs, hTail, h⟩ := h
    rw [pure_eq_ok] at h
    rw [← h] at hb
    rcases List.mem_cons.mp hb with rfl | hb
    · exact ⟨a, List.mem_cons_self, hHead⟩
    · obtain ⟨a', ha', hf⟩ := exists_of_mem_mapM_ok hTail b hb
      exact ⟨a', List.mem_cons_of_mem a ha', hf⟩

theorem exists_mem_mapM_ok {f : α → Except ε β} :
    ∀ {l : List α} {l' : List β}, l.mapM f = .ok l' → ∀ a ∈ l, ∃ b ∈ l', f a = .ok b
  | [], _, _, a, ha => absurd ha List.not_mem_nil
  | a :: l, l', h, a₀, ha => by
    rw [List.mapM_cons, bind_eq_ok] at h
    obtain ⟨b₀, hHead, h⟩ := h
    rw [bind_eq_ok] at h
    obtain ⟨bs, hTail, h⟩ := h
    rw [pure_eq_ok] at h
    rw [← h]
    rcases List.mem_cons.mp ha with rfl | ha
    · exact ⟨b₀, List.mem_cons_self, hHead⟩
    · obtain ⟨b, hb, hf⟩ := exists_mem_mapM_ok hTail a₀ ha
      exact ⟨b, List.mem_cons_of_mem b₀ hb, hf⟩

theorem foldlM_invariant (P : σ → Prop) (f : σ → α → Except ε σ)
    (hStep : ∀ s a s', P s → f s a = .ok s' → P s') :
    ∀ (l : List α) (s s' : σ), P s → l.foldlM f s = .ok s' → P s' := by
  intro l
  induction l with
  | nil =>
    intro s s' hP hRun
    simp only [List.foldlM_nil, pure_eq_ok] at hRun
    exact hRun ▸ hP
  | cons a l ih =>
    intro s s' hP hRun
    rw [List.foldlM_cons] at hRun
    obtain ⟨s₁, hHead, hTail⟩ := bind_eq_ok.mp hRun
    exact ih s₁ s' (hStep s a s₁ hP hHead) hTail

theorem foldlM_invariant_mem (P : σ → Prop) (f : σ → α → Except ε σ) :
    ∀ (l : List α), (∀ s a s', a ∈ l → P s → f s a = .ok s' → P s') →
      ∀ (s s' : σ), P s → l.foldlM f s = .ok s' → P s' := by
  intro l
  induction l with
  | nil =>
    intro _ s s' hP hRun
    simp only [List.foldlM_nil, pure_eq_ok] at hRun
    exact hRun ▸ hP
  | cons a l ih =>
    intro hStep s s' hP hRun
    rw [List.foldlM_cons] at hRun
    obtain ⟨s₁, hHead, hTail⟩ := bind_eq_ok.mp hRun
    exact ih (fun t b t' hb => hStep t b t' (List.mem_cons_of_mem a hb)) s₁ s'
      (hStep s a s₁ List.mem_cons_self hP hHead) hTail

theorem map_eq_map {γ : Type} {f : α → γ} {g : β → γ} {x : Except ε α} {y : Except ε β}
    (h : x.map f = y.map g) :
    (∃ e, x = .error e ∧ y = .error e) ∨ ∃ a b, x = .ok a ∧ y = .ok b ∧ f a = g b := by
  cases x with
  | error e =>
    cases y with
    | error e' =>
      simp only [Except.map, Except.error.injEq] at h
      exact .inl ⟨e, rfl, h ▸ rfl⟩
    | ok b => simp [Except.map] at h
  | ok a =>
    cases y with
    | error e => simp [Except.map] at h
    | ok b =>
      simp only [Except.map, Except.ok.injEq] at h
      exact .inr ⟨a, b, rfl, rfl, h⟩

theorem foldlM_map_congr {τ γ : Type} (π : σ → γ) (ρ : τ → γ) (f : σ → α → Except ε σ)
    (g : τ → α → Except ε τ) :
    ∀ (l : List α), (∀ a ∈ l, ∀ s t, π s = ρ t → (f s a).map π = (g t a).map ρ) →
      ∀ s t, π s = ρ t → (l.foldlM f s).map π = (l.foldlM g t).map ρ
  | [], _, s, t, h => by
    show Except.ok (π s) = Except.ok (ρ t)
    rw [h]
  | a :: l, hStep, s, t, h => by
    rw [List.foldlM_cons, List.foldlM_cons]
    rcases map_eq_map (hStep a List.mem_cons_self s t h) with ⟨e, hx, hy⟩ | ⟨s₁, t₁, hx, hy, h₁⟩
    · rw [hx, hy]
      rfl
    · rw [hx, hy, ok_bind, ok_bind]
      exact foldlM_map_congr π ρ f g l (fun b hb => hStep b (List.mem_cons_of_mem a hb)) s₁ t₁ h₁

end ExceptRun
