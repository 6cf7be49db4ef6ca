import Tvm.SEqual.Simulation

namespace Tvm.SEqual

variable {O : Type}

/-- A check as a reflexive reducer makes it on `(x, x)`: a passing primitive, or a pair `(y, y)`. -/
def Check.Refl : Check O → Prop
  | .prim eq _ => eq = true
  | .object lhs rhs _ _ => lhs = rhs
  | .mark => True

/-- Reflexive reducers: on a pair `(x, x)` every check is `Check.Refl`. -/
def Registry.Reflexive (R : Registry O) : Prop :=
  ∀ mfv x, ∀ c ∈ R.reduce mfv x x, c.Refl

inductive Check.Swapped : Check O → Check O → Prop
  | prim (eq : Bool) (site site' : Option PathSource) : Swapped (.prim eq site) (.prim eq site')
  | object (lhs rhs : Option O) (defEqual : Bool) (site site' : PathSource) :
      Swapped (.object lhs rhs defEqual site) (.object rhs lhs defEqual site')
  | mark : Swapped .mark .mark

/-- Symmetric reducers: the checks for `(r, l)` are the swaps of those for `(l, r)`. -/
def Registry.Symmetric (R : Registry O) : Prop :=
  ∀ mfv l r, R.typeIndex l = R.typeIndex r →
    List.Forall₂ Check.Swapped (R.reduce mfv l r) (R.reduce mfv r l)

namespace EagerState

def Diagonal (st : EagerState O) : Prop :=
  ∀ x y, st.equalMapLhs x = some y → y = x

def swap (st : EagerState O) : EagerState O :=
  ⟨st.equalMapRhs, st.equalMapLhs, st.invoked.map fun t => (t.2.1, t.1, t.2.2)⟩

@[simp] theorem swap_invoke (st : EagerState O) (l r : O) (mfv : Bool) :
    (st.invoke l r mfv).swap = st.swap.invoke r l mfv := by
  simp [swap, invoke]

theorem Inv.swap {st : EagerState O} (h : st.Inv) : st.swap.Inv := fun l r => (h r l).symm

variable [DecidableEq O]

theorem Diagonal.insert_self {st : EagerState O} (hd : st.Diagonal) (x : O) :
    (st.insert x x).Diagonal := by
  intro a b h
  simp only [insert, Function.update_apply] at h
  split_ifs at h with ha
  · exact ha ▸ (Option.some.inj h).symm
  · exact hd a b h

end EagerState

open EagerState

variable [DecidableEq O]

section Determinism

variable (R : Registry O) (cfg : Config)

/-- `RunTasks` returns at most one result: more fuel only runs the same iterations further. -/
theorem runTasks_det : ∀ {n m : Nat} {s s₁ s₂ : Handler O} {b₁ b₂ : Bool},
    runTasks R cfg n s = .stop b₁ s₁ → runTasks R cfg m s = .stop b₂ s₂ → b₁ = b₂ ∧ s₁ = s₂
  | 0, _, _, _, _, _, _, h, _ => nomatch h
  | _ + 1, 0, _, _, _, _, _, _, h => nomatch h
  | _ + 1, _ + 1, s, _, _, _, _, h₁, h₂ => by
    simp only [runTasks] at h₁ h₂
    rcases hs : step R cfg s with s' | ⟨b, s'⟩ | e <;> simp only [hs] at h₁ h₂
    · exact runTasks_det h₁ h₂
    · cases h₁; cases h₂; exact ⟨rfl, rfl⟩
    · cases h₁

theorem equal_fuel (s : Handler O) (lhs rhs : Any O) (mfv : Bool) :
    (∃ res, ∀ fuel, equal R cfg fuel s lhs rhs mfv = res) ∨
      ∃ s₀, ∀ fuel, equal R cfg fuel s lhs rhs mfv = runTasks R cfg fuel s₀ := by
  simp only [equal]
  split
  · exact .inl ⟨_, fun _ => rfl⟩
  · split
    · exact .inl ⟨_, fun _ => rfl⟩
    · split
      · exact .inl ⟨_, fun _ => rfl⟩
      · exact .inl ⟨_, fun _ => rfl⟩
      · split
        · split
          · exact .inr ⟨_, fun _ => rfl⟩
          · exact .inl ⟨_, fun _ => rfl⟩
        · exact .inl ⟨_, fun _ => rfl⟩
  · exact .inl ⟨_, fun _ => rfl⟩

theorem equal_det {n m : Nat} {s s₁ s₂ : Handler O} {lhs rhs : Any O} {mfv b₁ b₂ : Bool}
    (h₁ : equal R cfg n s lhs rhs mfv = .stop b₁ s₁) (h₂ : equal R cfg m s lhs rhs mfv = .stop b₂ s₂) :
    b₁ = b₂ ∧ s₁ = s₂ := by
  rcases equal_fuel R cfg s lhs rhs mfv with ⟨res, hres⟩ | ⟨s₀, hs₀⟩
  · rw [hres] at h₁ h₂
    subst h₁
    cases h₂
    exact ⟨rfl, rfl⟩
  · rw [hs₀] at h₁ h₂
    exact runTasks_det R cfg h₁ h₂

end Determinism

section Requests

variable {R : Registry O} {rank : O → Nat} {n : Nat}

theorem eagerRequest_zero_of_open {st : EagerState O} {l r : O} {mfv : Bool}
    (ht : R.typeIndex l = R.typeIndex r) (hm : mapResult st.equalMapLhs st.equalMapRhs l r = none) :
    eagerRequest R 0 st (some l) (some r) mfv = none := by
  simp [eagerRequest, ht, hm]

theorem eagerRequest_inv (hS : RequestSound R rank n) {st st' : EagerState O} {lo ro : Option O}
    {mfv b : Bool} (h : eagerRequest R n st lo ro mfv = some (b, st')) (hinv : st.Inv) : st'.Inv := by
  rcases lo with _ | l <;> rcases ro with _ | r
  case some.some => exact (hS st st' l r mfv b h hinv).inv
  all_goals
    simp only [eagerRequest_none_none, eagerRequest_none_some, eagerRequest_some_none,
      Option.some.injEq, Prod.mk.injEq] at h
    exact h.2 ▸ hinv

end Requests

section Reflexivity

variable {R : Registry O} {rank : O → Nat}

theorem mapResult_self {st : EagerState O} (hinv : st.Inv) (hd : st.Diagonal) (x : O) :
    mapResult st.equalMapLhs st.equalMapRhs x x ≠ some false := by
  unfold mapResult
  cases hx : st.equalMapLhs x with
  | some y => simp [hd x y hx]
  | none =>
    cases hr : st.equalMapRhs x with
    | none => simp
    | some z =>
      obtain rfl : x = z := hd z x ((hinv z x).2 hr)
      simp [(hinv x x).2 hr] at hx

theorem eagerChecks_refl {n : Nat} (hS : RequestSound R rank n)
    (hreq : ∀ st x mfv b st', eagerRequest R n st (some x) (some x) mfv = some (b, st') →
      st.Inv → st.Diagonal → b = true ∧ st'.Diagonal) {mfv : Bool} :
    ∀ (cs : List (Check O)) st g b st' m, (∀ c ∈ cs, c.Refl) →
      eagerChecks (eagerRequest R n) mfv cs st g = some (b, st', m) → st.Inv → st.Diagonal →
      b = true ∧ st'.Inv ∧ st'.Diagonal
  | [], st, g, b, st', m, _, h, hinv, hd => by
    simp only [eagerChecks, Option.some.injEq, Prod.mk.injEq] at h
    obtain ⟨rfl, rfl, -⟩ := h
    exact ⟨rfl, hinv, hd⟩
  | .prim eq _ :: cs, st, g, b, st', m, hcs, h, hinv, hd => by
    have heq : eq = true := hcs _ (.head _)
    simp only [eagerChecks, heq, if_true] at h
    exact eagerChecks_refl hS hreq cs st g b st' m (fun c hc => hcs c (.tail _ hc)) h hinv hd
  | .object lo ro d _ :: cs, st, g, b, st', m, hcs, h, hinv, hd => by
    obtain rfl : lo = ro := hcs _ (.head _)
    obtain ⟨st₁, h₁, hd₁⟩ : ∃ st₁, eagerRequest R n st lo lo (d || mfv) = some (true, st₁) ∧
        st₁.Diagonal := by
      rcases lo with _ | x
      · exact ⟨st, eagerRequest_none_none, hd⟩
      · rcases h₁ : eagerRequest R n st (some x) (some x) (d || mfv) with _ | ⟨b₁, st₁⟩
        · simp [eagerChecks, h₁] at h
        · obtain ⟨rfl, hd₁⟩ := hreq st x _ b₁ st₁ h₁ hinv hd
          exact ⟨st₁, rfl, hd₁⟩
    simp only [eagerChecks, h₁] at h
    exact eagerChecks_refl hS hreq cs st₁ g b st' m (fun c hc => hcs c (.tail _ hc)) h
      (eagerRequest_inv hS h₁ hinv) hd₁
  | .mark :: cs, st, _, b, st', m, hcs, h, hinv, hd =>
    eagerChecks_refl hS hreq cs st true b st' m (fun c hc => hcs c (.tail _ hc)) h hinv hd

theorem requestRefl (hR : Ranked R rank) (hRefl : R.Reflexive) :
    ∀ n st x mfv b (st' : EagerState O), eagerRequest R n st (some x) (some x) mfv = some (b, st') →
      st.Inv → st.Diagonal → b = true ∧ st'.Diagonal := by
  intro n
  induction n using Nat.strong_induction_on with
  | _ n ih =>
    intro st x mfv b st' h hinv hd
    rcases eagerRequest_cases h with ⟨hne, -⟩ | ⟨-, hm, rfl⟩ | ⟨-, -, k, st₁, m, rfl, hc, rfl⟩
    · exact absurd rfl hne
    · cases b
      · exact absurd hm (mapResult_self hinv hd x)
      · exact ⟨rfl, hd⟩
    · obtain ⟨rfl, -, hd₁⟩ := eagerChecks_refl (requestSound hR k) (ih k (by omega)) _ _ _ _ _ _
        (hRefl mfv x) hc hinv hd
      cases m
      · exact ⟨rfl, hd₁⟩
      · exact ⟨rfl, hd₁.insert_self x⟩

theorem eagerEqual_self (hR : Ranked R rank) (hRefl : R.Reflexive) (x : O) (mfv : Bool) :
    ∃ st', eagerEqual R (rank x + 1) (.obj x) (.obj x) mfv = some (true, st') := by
  obtain ⟨⟨b, st'⟩, h⟩ := Option.isSome_iff_exists.1 (eagerEqual_obj_isSome hR x x mfv)
  obtain ⟨rfl, -⟩ := requestRefl hR hRefl _ _ x mfv b st' h inv_empty fun _ _ h => nomatch h
  exact ⟨st', h⟩

end Reflexivity

section Symmetry

variable {R : Registry O} {rank : O → Nat}

theorem mapResult_swap {st : EagerState O} (hinv : st.Inv) (l r : O) :
    mapResult st.equalMapRhs st.equalMapLhs r l = mapResult st.equalMapLhs st.equalMapRhs l r := by
  unfold mapResult
  cases hl : st.equalMapLhs l with
  | some r' =>
    have hr' := (hinv l r').1 hl
    cases hr : st.equalMapRhs r with
    | some l' =>
      have hl' := (hinv l' r).2 hr
      have : l' = l ↔ r' = r :=
        ⟨fun h => by simp_all, fun h => Option.some.inj ((h ▸ hr').symm.trans hr).symm⟩
      simp [this]
    | none =>
      have : r' ≠ r := by rintro rfl; simp [hr] at hr'
      simp [this]
  | none =>
    cases hr : st.equalMapRhs r with
    | some l' =>
      have : l' ≠ l := by rintro rfl; simp [(hinv l' r).2 hr] at hl
      simp [this]
    | none => simp

variable (R) in
def RequestSymm (n : Nat) : Prop :=
  ∀ st lo ro mfv, st.Inv →
    eagerRequest R n st.swap ro lo mfv = (eagerRequest R n st lo ro mfv).map (Prod.map id swap)

theorem eagerChecks_swap {n : Nat} (hS : RequestSound R rank n) (hreq : RequestSymm R n)
    {mfv : Bool} {cs cs' : List (Check O)} (hcs : List.Forall₂ Check.Swapped cs cs') :
    ∀ st g, st.Inv →
      eagerChecks (eagerRequest R n) mfv cs' st.swap g =
        (eagerChecks (eagerRequest R n) mfv cs st g).map (Prod.map id (Prod.map swap id)) := by
  induction hcs with
  | nil => exact fun _ _ _ => rfl
  | cons hc _ ih =>
    intro st g hinv
    cases hc with
    | prim eq =>
      cases eq
      · rfl
      · exact ih st g hinv
    | object lo ro d =>
      simp only [eagerChecks, hreq st lo ro _ hinv]
      rcases h : eagerRequest R n st lo ro (d || mfv) with _ | ⟨_ | _, st₁⟩
      · rfl
      · rfl
      · exact ih st₁ g (eagerRequest_inv hS h hinv)
    | mark => exact ih st true hinv

theorem requestSymm (hR : Ranked R rank) (hSym : R.Symmetric) : ∀ n, RequestSymm R n := by
  intro n
  induction n using Nat.strong_induction_on with
  | _ n ih =>
    intro st lo ro mfv hinv
    rcases lo with _ | l <;> rcases ro with _ | r
    case some.some =>
      by_cases ht : R.typeIndex l = R.typeIndex r
      · rcases hm : mapResult st.equalMapLhs st.equalMapRhs l r with _ | b
        · have hm' : mapResult st.swap.equalMapLhs st.swap.equalMapRhs r l = none :=
            (mapResult_swap hinv l r).trans hm
          rcases n with _ | k
          · rw [eagerRequest_zero_of_open ht.symm hm', eagerRequest_zero_of_open ht hm]
            rfl
          · rw [eagerRequest_succ_of_open ht.symm hm', eagerRequest_succ_of_open ht hm,
              ← swap_invoke, eagerChecks_swap (requestSound hR k) (ih k (by omega))
                (hSym mfv l r ht) (st.invoke l r mfv) false hinv, Option.map_map, Option.map_map]
            congr 1
            funext ⟨b, st₁, m⟩
            cases b <;> cases m <;> rfl
        · rw [eagerRequest_of_mapResult ht.symm ((mapResult_swap hinv l r).trans hm),
            eagerRequest_of_mapResult ht hm]
          rfl
      · rw [eagerRequest_of_typeIndex_ne (Ne.symm ht), eagerRequest_of_typeIndex_ne ht]
        rfl
    all_goals simp

theorem eagerEqual_swap (hR : Ranked R rank) (hSym : R.Symmetric) (n : Nat) (l r : O) (mfv : Bool) :
    eagerEqual R n (.obj r) (.obj l) mfv = (eagerEqual R n (.obj l) (.obj r) mfv).map (Prod.map id swap) :=
  requestSymm hR hSym n .empty (some l) (some r) mfv inv_empty

end Symmetry

theorem chainRegistry_reflexive : chainRegistry.Reflexive := by
  intro mfv x c hc
  simp only [chainRegistry] at hc
  split_ifs at hc
  · simp at hc
  · simp only [List.mem_cons, List.not_mem_nil, or_false] at hc
    rcases hc with rfl | rfl
    exacts [trivial, rfl]

theorem chainRegistry_symmetric : chainRegistry.Symmetric := by
  intro mfv l r ht
  simp only [chainRegistry] at ht ⊢
  by_cases hl : l = 0 <;> by_cases hr : r = 0 <;> simp [hl, hr] at ht ⊢
  exact ⟨.mark, .object _ _ _ _ _⟩

/-- With reflexive reducers `Equal` compares every object graph with itself as equal. -/
theorem equal_reflexive (R : Registry O) (rank : O → Nat) (hR : Ranked R rank)
    (hRefl : R.Reflexive) (cfg : Config) (hA : cfg.assertMode = false) (x : O) (mfv : Bool) :
    ∃ fuel s', equal R cfg fuel .init (.obj x) (.obj x) mfv = .stop true s' := by
  obtain ⟨st', h⟩ := eagerEqual_self hR hRefl x mfv
  obtain ⟨fuel, s', hs', -⟩ := equal_of_eagerEqual R hA hR .init rfl rfl h
  exact ⟨fuel, s', hs'⟩

theorem equal_reflexive_chain : Ranked chainRegistry id ∧ chainRegistry.Reflexive ∧
    (⟨false, true, true⟩ : Config).assertMode = false ∧
    ∃ fuel s', equal chainRegistry ⟨false, true, true⟩ fuel .init (.obj 3) (.obj 3) true =
      .stop true s' :=
  ⟨chainRegistry_ranked, chainRegistry_reflexive, rfl,
    equal_reflexive chainRegistry id chainRegistry_ranked chainRegistry_reflexive _ rfl 3 true⟩

/-- With symmetric reducers `Equal(A, B)` and `Equal(B, A)` return the same verdict. -/
theorem equal_symmetric (R : Registry O) (rank : O → Nat) (hR : Ranked R rank)
    (hSym : R.Symmetric) (cfg : Config) (hA : cfg.assertMode = false) (l r : O) (mfv : Bool) :
    ∃ b, (∃ fuel s', equal R cfg fuel .init (.obj l) (.obj r) mfv = .stop b s') ∧
      ∃ fuel s', equal R cfg fuel .init (.obj r) (.obj l) mfv = .stop b s' := by
  obtain ⟨⟨b, st'⟩, h⟩ := Option.isSome_iff_exists.1 (eagerEqual_obj_isSome hR l r mfv)
  have h' : eagerEqual R (rank l + 1) (.obj r) (.obj l) mfv = some (b, st'.swap) := by
    rw [eagerEqual_swap hR hSym, h]
    rfl
  obtain ⟨fuel, s', hs', -⟩ := equal_of_eagerEqual R hA hR .init rfl rfl h
  obtain ⟨fuel', s'', hs'', -⟩ := equal_of_eagerEqual R hA hR .init rfl rfl h'
  exact ⟨b, ⟨fuel, s', hs'⟩, fuel', s'', hs''⟩

theorem equal_symmetric_chain : Ranked chainRegistry id ∧ chainRegistry.Symmetric ∧
    (⟨false, true, false⟩ : Config).assertMode = false ∧
    ∃ b, (∃ fuel s', equal chainRegistry ⟨false, true, false⟩ fuel .init (.obj 3) (.obj 2) true =
        .stop b s') ∧
      ∃ fuel s', equal chainRegistry ⟨false, true, false⟩ fuel .init (.obj 2) (.obj 3) true =
        .stop b s' :=
  ⟨chainRegistry_ranked, chainRegistry_symmetric, rfl,
    equal_symmetric chainRegistry id chainRegistry_ranked chainRegistry_symmetric _ rfl 3 2 true⟩

end Tvm.SEqual
