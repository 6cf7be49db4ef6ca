namespace Tvm

/-- `v[i]` of a `std::vector`, which `operator[]` does not check: `fault i` past the end. -/
def vectorAt {ε α : Type} (fault : Nat → ε) (v : List α) (i : Nat) : Except ε α :=
  if h : i < v.length then .ok v[i] else .error (fault i)

theorem vectorAt_of_le {ε α : Type} {fault : Nat → ε} {v : List α} {i : Nat} (h : v.length ≤ i) :
    vectorAt fault v i = .error (fault i) :=
  dif_neg (Nat.not_lt.2 h)

@[simp] theorem except_ok_bind {ε α β : Type} (a : α) (f : α → Except ε β) :
    (Except.ok a >>= f) = f a := rfl

@[simp] theorem except_pure {ε α : Type} (a : α) : (pure a : Except ε α) = .ok a := rfl

@[simp] theorem except_map_ok {ε α β : Type} (a : α) (f : α → β) :
    (f <$> Except.ok a : Except ε β) = .ok (f a) := rfl

@[simp] theorem except_map_error {ε α β : Type} (e : ε) (f : α → β) :
    (f <$> Except.error e : Except ε β) = .error e := rfl

@[simp] theorem except_error_bind {ε α β : Type} (e : ε) (f : α → Except ε β) :
    (Except.error e >>= f) = .error e := rfl

@[simp] theorem except_throw_bind {ε α β : Type} (e : ε) (f : α → Except ε β) :
    (throw e >>= f : Except ε β) = .error e := rfl

theorem except_bind_eq_ok {ε α β : Type} {x : Except ε α} {f : α → Except ε β} {b : β}
    (h : x >>= f = .ok b) : ∃ a, x = .ok a ∧ f a = .ok b := by
  cases x with
  | error e => cases h
  | ok a => exact ⟨a, rfl, h⟩

theorem stateT_run'_ok {σ ε α : Type} {x : StateT σ (Except ε) α} {s : σ} {a : α}
    (h : x.run' s = .ok a) : ∃ s', x.run s = .ok (a, s') := by
  rw [StateT.run'_eq] at h
  cases hx : x.run s with
  | error e => rw [hx] at h; cases h
  | ok r => rw [hx] at h; cases h; exact ⟨r.2, rfl⟩

theorem stateT_bind_eq_ok {σ ε α β : Type} {x : StateT σ (Except ε) α}
    {f : α → StateT σ (Except ε) β} {s : σ} {r : β × σ} (h : (x >>= f).run s = .ok r) :
    ∃ a s₁, x.run s = .ok (a, s₁) ∧ (f a).run s₁ = .ok r := by
  rw [StateT.run_bind] at h
  obtain ⟨⟨a, s₁⟩, ha, hf⟩ := except_bind_eq_ok h
  exact ⟨a, s₁, ha, hf⟩

theorem exists_bind_eq_ok {ε α β : Type} {x : Except ε α} {f : α → Except ε β} :
    (∃ b, x >>= f = .ok b) ↔ ∃ a, x = .ok a ∧ ∃ b, f a = .ok b := by
  cases x <;> simp

theorem exists_mapM_eq_ok {ε α β : Type} {f : α → Except ε β} :
    ∀ {xs : List α}, (∃ ys, xs.mapM f = .ok ys) ↔ ∀ a ∈ xs, ∃ b, f a = .ok b
  | [] => ⟨fun _ a h => absurd h (List.not_mem_nil a), fun _ => ⟨[], rfl⟩⟩
  | a :: xs => by
    simp only [List.mapM_cons, exists_bind_eq_ok, except_pure, Except.ok.injEq, exists_eq',
      and_true, exists_mapM_eq_ok, List.forall_mem_cons]
    exact ⟨fun ⟨b, hb, h⟩ => ⟨⟨b, hb⟩, h⟩, fun ⟨⟨b, hb⟩, h⟩ => ⟨b, hb, h⟩⟩

theorem mapM_ok_iff {ε α β : Type} {f : α → Except ε β} {P : α → Prop} {g : α → β}
    (hf : ∀ a b, f a = .ok b ↔ P a ∧ b = g a) :
    ∀ {xs : List α} {ys : List β}, xs.mapM f = .ok ys ↔ (∀ a ∈ xs, P a) ∧ ys = xs.map g
  | [], ys => by rw [List.mapM_nil]; simp [eq_comm]
  | a :: xs, ys => by
    rw [List.mapM_cons]
    cases hfa : f a with
    | error e =>
      refine ⟨fun h => (by cases h), fun h => ?_⟩
      rw [(hf a _).2 ⟨h.1 a (List.mem_cons_self a xs), rfl⟩] at hfa
      cases hfa
    | ok b =>
      obtain ⟨hPa, rfl⟩ := (hf a b).1 hfa
      cases hxs : xs.mapM f with
      | error e =>
        refine ⟨fun h => (by cases h), fun h => ?_⟩
        rw [(mapM_ok_iff hf).2 ⟨fun x hx => h.1 x (List.mem_cons_of_mem a hx), rfl⟩] at hxs
        cases hxs
      | ok bs =>
        obtain ⟨hP, rfl⟩ := (mapM_ok_iff hf).1 hxs
        simp only [except_ok_bind, except_pure, Except.ok.injEq, List.forall_mem_cons,
          List.map_cons, hPa, true_and, eq_comm]
        exact (and_iff_right hP).symm

theorem mapM_range_ok {ε β : Type} {f : Nat → Except ε β} :
    ∀ {m : Nat}, (∀ i < m, ∃ b, f i = .ok b) → ∃ bs, (List.range m).mapM f = .ok bs
  | 0, _ => ⟨[], rfl⟩
  | m + 1, hok => by
    obtain ⟨bs, hbs⟩ := mapM_range_ok fun i hi => hok i (Nat.lt_succ_of_lt hi)
    obtain ⟨b, hb⟩ := hok m (Nat.lt_succ_self m)
    refine ⟨bs ++ [b], ?_⟩
    simp only [List.range_succ, List.mapM_append, List.mapM_cons, List.mapM_nil, hbs, hb,
      except_ok_bind, except_pure]

theorem mapM_range_error {ε β : Type} {f : Nat → Except ε β} {m n : Nat} {e : ε}
    (hok : ∀ i < m, ∃ b, f i = .ok b) (he : f m = .error e) (hmn : m < n) :
    (List.range n).mapM f = .error e := by
  obtain ⟨bs, hbs⟩ := mapM_range_ok hok
  obtain ⟨r, rfl⟩ := Nat.exists_eq_add_of_lt hmn
  rw [show m + r + 1 = (m + 1) + r by omega, List.range_add, List.range_succ, List.mapM_append,
    List.mapM_append, hbs, except_ok_bind, List.mapM_cons, he]
  rfl

/-- Two runs that stop with the same error, or both succeed, whatever they return. -/
def FailsAlike {ε α β : Type} (x : Except ε α) (y : Except ε β) : Prop :=
  (fun _ => ()) <$> x = (fun _ => ()) <$> y

section FailsAlike

variable {ε α β γ δ : Type}

theorem FailsAlike.pure (a : α) (b : β) : FailsAlike (pure a : Except ε α) (pure b) := rfl

theorem FailsAlike.error_iff {x : Except ε α} {y : Except ε β} (h : FailsAlike x y) (e : ε) :
    x = .error e ↔ y = .error e := by
  cases x <;> cases y <;> simp_all [FailsAlike]

theorem FailsAlike.bind {x : Except ε α} {y : Except ε β} {f : α → Except ε γ}
    {g : β → Except ε δ} (hxy : FailsAlike x y) (hfg : ∀ a b, FailsAlike (f a) (g b)) :
    FailsAlike (x >>= f) (y >>= g) := by
  cases x <;> cases y <;> simp_all [FailsAlike]
  all_goals exact hfg _ _

theorem FailsAlike.bind_left (x : Except ε α) {f : α → Except ε γ} {g : α → Except ε δ}
    (hfg : ∀ a, FailsAlike (f a) (g a)) : FailsAlike (x >>= f) (x >>= g) := by
  cases x
  · rfl
  · exact hfg _

theorem FailsAlike.mapM {f : α → Except ε β} {g : α → Except ε γ}
    (h : ∀ a, FailsAlike (f a) (g a)) : ∀ xs : List α, FailsAlike (xs.mapM f) (xs.mapM g)
  | [] => FailsAlike.pure _ _
  | a :: xs => by
    simp only [List.mapM_cons]
    exact (h a).bind fun _ _ => (FailsAlike.mapM h xs).bind fun _ _ => FailsAlike.pure _ _

end FailsAlike

end Tvm
