import Tvm.SEqual.Engine
import Mathlib.Data.List.Infix

namespace Tvm.SEqual

/-- The state of a comparison by recursive descent: the remap maps and the invocations so far. -/
structure EagerState (O : Type) where
  equalMapLhs : O → Option O
  equalMapRhs : O → Option O
  invoked : List (O × O × Bool)

variable {O : Type}

namespace EagerState

def empty : EagerState O := ⟨fun _ => none, fun _ => none, []⟩

def invoke (st : EagerState O) (l r : O) (mfv : Bool) : EagerState O :=
  { st with invoked := st.invoked ++ [(l, r, mfv)] }

def insert [DecidableEq O] (st : EagerState O) (l r : O) : EagerState O :=
  { st with equalMapLhs := Function.update st.equalMapLhs l (some r),
            equalMapRhs := Function.update st.equalMapRhs r (some l) }

/-- The two remap maps are inverse partial functions: together one partial bijection. -/
def Inv (st : EagerState O) : Prop :=
  ∀ l r, st.equalMapLhs l = some r ↔ st.equalMapRhs r = some l

theorem inv_empty : (empty : EagerState O).Inv := fun _ _ => by simp [empty]

structure Grows (st st' : EagerState O) : Prop where
  lhs : ∀ l r, st.equalMapLhs l = some r → st'.equalMapLhs l = some r
  rhs : ∀ r l, st.equalMapRhs r = some l → st'.equalMapRhs r = some l
  invoked : st.invoked <+: st'.invoked

def NewBelow (rank : O → Nat) (st st' : EagerState O) (a b : Nat) : Prop :=
  ∀ l r, st'.equalMapLhs l = some r → st.equalMapLhs l = some r ∨ rank l < a ∧ rank r < b

@[simp] theorem invoke_equalMapLhs (st : EagerState O) (l r : O) (mfv : Bool) :
    (st.invoke l r mfv).equalMapLhs = st.equalMapLhs := rfl

@[simp] theorem invoke_equalMapRhs (st : EagerState O) (l r : O) (mfv : Bool) :
    (st.invoke l r mfv).equalMapRhs = st.equalMapRhs := rfl

@[simp] theorem invoke_invoked (st : EagerState O) (l r : O) (mfv : Bool) :
    (st.invoke l r mfv).invoked = st.invoked ++ [(l, r, mfv)] := rfl

def after (pre : List (O × O × Bool)) (st : EagerState O) : EagerState O :=
  { st with invoked := pre ++ st.invoked }

theorem invoke_after (pre : List (O × O × Bool)) (st : EagerState O) (l r : O) (mfv : Bool) :
    (st.after pre).invoke l r mfv = (st.invoke l r mfv).after pre := by
  simp [invoke, after]

theorem Grows.refl (st : EagerState O) : st.Grows st :=
  ⟨fun _ _ h => h, fun _ _ h => h, List.prefix_refl _⟩

theorem Grows.trans {st₁ st₂ st₃ : EagerState O} (h₁ : st₁.Grows st₂) (h₂ : st₂.Grows st₃) :
    st₁.Grows st₃ :=
  ⟨fun l r h => h₂.lhs l r (h₁.lhs l r h), fun r l h => h₂.rhs r l (h₁.rhs r l h),
    h₁.invoked.trans h₂.invoked⟩

theorem grows_invoke (st : EagerState O) (l r : O) (mfv : Bool) : st.Grows (st.invoke l r mfv) :=
  ⟨fun _ _ h => h, fun _ _ h => h, List.prefix_append _ _⟩

theorem NewBelow.refl (rank : O → Nat) (st : EagerState O) (a b : Nat) : NewBelow rank st st a b :=
  fun _ _ h => .inl h

theorem NewBelow.trans {rank : O → Nat} {st₁ st₂ st₃ : EagerState O} {a b : Nat}
    (h₁ : NewBelow rank st₁ st₂ a b) (h₂ : NewBelow rank st₂ st₃ a b) :
    NewBelow rank st₁ st₃ a b := fun l r h =>
  (h₂ l r h).elim (h₁ l r) .inr

theorem NewBelow.mono {rank : O → Nat} {st st' : EagerState O} {a b a' b' : Nat}
    (h : NewBelow rank st st' a b) (ha : a ≤ a') (hb : b ≤ b') : NewBelow rank st st' a' b' :=
  fun l r hlr => (h l r hlr).imp_right fun ⟨h₁, h₂⟩ => ⟨by omega, by omega⟩

structure Sound (rank : O → Nat) (st st' : EagerState O) (a b : Nat) : Prop where
  inv : st'.Inv
  grows : st.Grows st'
  below : NewBelow rank st st' a b

theorem Sound.refl {rank : O → Nat} {st : EagerState O} (hinv : st.Inv) (a b : Nat) : Sound rank st st a b :=
  ⟨hinv, .refl st, .refl rank st a b⟩

theorem Sound.trans {rank : O → Nat} {st₁ st₂ st₃ : EagerState O} {a b : Nat} (h₁ : Sound rank st₁ st₂ a b)
    (h₂ : Sound rank st₂ st₃ a b) : Sound rank st₁ st₃ a b :=
  ⟨h₂.inv, h₁.grows.trans h₂.grows, h₁.below.trans h₂.below⟩

theorem Sound.mono {rank : O → Nat} {st st' : EagerState O} {a b a' b' : Nat} (h : Sound rank st st' a b)
    (ha : a ≤ a') (hb : b ≤ b') : Sound rank st st' a' b' :=
  ⟨h.inv, h.grows, h.below.mono ha hb⟩

theorem Sound.unmapped {rank : O → Nat} {st st' : EagerState O} {l r : O}
    (h : Sound rank st st' (rank l) (rank r)) (hinv : st.Inv) (hl : st.equalMapLhs l = none)
    (hr : st.equalMapRhs r = none) : st'.equalMapLhs l = none ∧ st'.equalMapRhs r = none := by
  constructor
  · rcases h' : st'.equalMapLhs l with _ | y
    · rfl
    · rcases h.below l y h' with h'' | ⟨h'', -⟩
      · simp [hl] at h''
      · omega
  · rcases h' : st'.equalMapRhs r with _ | x
    · rfl
    · rcases h.below x r ((h.inv x r).2 h') with h'' | ⟨-, h''⟩
      · simp [(hinv x r).1 h''] at hr
      · omega

variable [DecidableEq O]

@[simp] theorem insert_invoked (st : EagerState O) (l r : O) :
    (st.insert l r).invoked = st.invoked := rfl

theorem insert_after (pre : List (O × O × Bool)) (st : EagerState O) (l r : O) :
    (st.after pre).insert l r = (st.insert l r).after pre := rfl

theorem grows_insert {st : EagerState O} {l r : O} (hl : st.equalMapLhs l = none)
    (hr : st.equalMapRhs r = none) : st.Grows (st.insert l r) := by
  refine ⟨fun x y h => ?_, fun y x h => ?_, List.prefix_refl _⟩
  · have hx : x ≠ l := by rintro rfl; simp [hl] at h
    simpa [insert, Function.update_noteq hx] using h
  · have hy : y ≠ r := by rintro rfl; simp [hr] at h
    simpa [insert, Function.update_noteq hy] using h

theorem Inv.insert {st : EagerState O} (hinv : st.Inv) {l r : O} (hl : st.equalMapLhs l = none)
    (hr : st.equalMapRhs r = none) : (st.insert l r).Inv := by
  intro x y
  by_cases hx : x = l <;> by_cases hy : y = r
  · subst hx hy; simp [EagerState.insert]
  · subst hx
    have : st.equalMapRhs y ≠ some x := fun h => by simp [(hinv x y).2 h] at hl
    simp [EagerState.insert, Function.update_noteq hy, Ne.symm hy, this]
  · subst hy
    have : st.equalMapLhs x ≠ some y := fun h => by simp [(hinv x y).1 h] at hr
    simp [EagerState.insert, Function.update_noteq hx, Ne.symm hx, this]
  · simpa [EagerState.insert, Function.update_noteq hx, Function.update_noteq hy] using hinv x y

end EagerState

open EagerState

variable [DecidableEq O]

theorem mapResult_eq_none {mapLhs mapRhs : O → Option O} {l r : O} :
    mapResult mapLhs mapRhs l r = none ↔ mapLhs l = none ∧ mapRhs r = none := by
  unfold mapResult
  split <;> simp_all [Option.isSome_iff_ne_none]

theorem mapResult_eq_some_true {mapLhs mapRhs : O → Option O} {l r : O} :
    mapResult mapLhs mapRhs l r = some true ↔ mapLhs l = some r := by
  unfold mapResult
  split <;> simp_all [Option.isSome_iff_ne_none]

theorem mapResult_of_grows {st st' : EagerState O} (hinv : st.Inv) (hinv' : st'.Inv)
    (hg : st.Grows st') {l r : O} {b : Bool}
    (h : mapResult st.equalMapLhs st.equalMapRhs l r = some b) :
    mapResult st'.equalMapLhs st'.equalMapRhs l r = some b := by
  unfold mapResult at h ⊢
  cases hl : st.equalMapLhs l with
  | some r' => simpa [hl, hg.lhs l r' hl] using h
  | none =>
    obtain ⟨l', hl'⟩ : ∃ l', st.equalMapRhs r = some l' := by
      cases hr : st.equalMapRhs r <;> simp_all
    have hb : b = false := by simp_all
    have hne : l' ≠ l := fun h => by simp [(hinv l r).2 (h ▸ hl')] at hl
    cases hl₂ : st'.equalMapLhs l with
    | some r₂ =>
      have : r₂ ≠ r := fun h =>
        hne (Option.some.inj ((hg.rhs r l' hl').symm.trans ((hinv' l r).1 (h ▸ hl₂))))
      simp [hb, this]
    | none => simp [hb, hg.rhs r l' hl']

section Eager

variable (R : Registry O)

/-- Modelled from the spec: a reducer's checks, each child comparison reduced completely first. -/
def eagerChecks (request : EagerState O → Option O → Option O → Bool → Option (Bool × EagerState O))
    (mfv : Bool) : List (Check O) → EagerState O → Bool → Option (Bool × EagerState O × Bool)
  | [], st, marked => some (true, st, marked)
  | .prim eq _ :: cs, st, marked =>
    if eq then eagerChecks request mfv cs st marked else some (false, st, marked)
  | .object lhs rhs defEqual _ :: cs, st, marked =>
    match request st lhs rhs (defEqual || mfv) with
    | some (true, st) => eagerChecks request mfv cs st marked
    | some (false, st) => some (false, st, marked)
    | none => none
  | .mark :: cs, st, _ => eagerChecks request mfv cs st true

/-- Modelled from the spec: a child comparison by recursive descent, `fuel` bounding its depth. -/
def eagerRequest : Nat → EagerState O → Option O → Option O → Bool → Option (Bool × EagerState O)
  | _, st, none, none, _ => some (true, st)
  | fuel, st, some l, some r, mfv =>
    if R.typeIndex l = R.typeIndex r then
      match mapResult st.equalMapLhs st.equalMapRhs l r, fuel with
      | some b, _ => some (b, st)
      | none, 0 => none
      | none, fuel + 1 =>
        match eagerChecks (eagerRequest fuel) mfv (R.reduce mfv l r) (st.invoke l r mfv) false with
        | some (true, st, marked) => some (true, if marked then st.insert l r else st)
        | some (false, st, _) => some (false, st)
        | none => none
    else some (false, st)
  | _, st, _, _, _ => some (false, st)

/-- Modelled from the spec: `Equal` by recursive descent from empty remap maps. -/
def eagerEqual (fuel : Nat) (lhs rhs : Any O) (mfv : Bool) : Option (Bool × EagerState O) :=
  match lhs, rhs with
  | .pod t b, .pod t' b' => some (decide (t = t' ∧ b = b'), .empty)
  | .obj l, .obj r => eagerRequest R fuel .empty (some l) (some r) mfv
  | _, _ => some (false, .empty)

/-- A rank on objects that every child comparison lowers on both sides: no cycle of comparisons. -/
def Ranked (rank : O → Nat) : Prop :=
  ∀ mfv l r, R.typeIndex l = R.typeIndex r → ∀ l' r' defEqual site,
    Check.object (some l') (some r') defEqual site ∈ R.reduce mfv l r → rank l' < rank l ∧ rank r' < rank r

end Eager

section Requests

variable {R : Registry O} {n : Nat} {st st' : EagerState O} {mfv b : Bool}

@[simp] theorem eagerRequest_none_none : eagerRequest R n st none none mfv = some (true, st) := by
  cases n <;> rfl

@[simp] theorem eagerRequest_some_none (l : O) :
    eagerRequest R n st (some l) none mfv = some (false, st) := by
  cases n <;> rfl

@[simp] theorem eagerRequest_none_some (r : O) :
    eagerRequest R n st none (some r) mfv = some (false, st) := by
  cases n <;> rfl

theorem eagerRequest_of_typeIndex_ne {l r : O} (ht : R.typeIndex l ≠ R.typeIndex r) :
    eagerRequest R n st (some l) (some r) mfv = some (false, st) := by
  unfold eagerRequest
  rw [if_neg ht]

theorem eagerRequest_of_mapResult {l r : O} (ht : R.typeIndex l = R.typeIndex r)
    (hm : mapResult st.equalMapLhs st.equalMapRhs l r = some b) :
    eagerRequest R n st (some l) (some r) mfv = some (b, st) := by
  unfold eagerRequest
  simp [ht, hm]

theorem eagerRequest_succ_of_open {l r : O} (ht : R.typeIndex l = R.typeIndex r)
    (hm : mapResult st.equalMapLhs st.equalMapRhs l r = none) :
    eagerRequest R (n + 1) st (some l) (some r) mfv =
      (eagerChecks (eagerRequest R n) mfv (R.reduce mfv l r) (st.invoke l r mfv) false).map
        fun res => (res.1, if res.1 && res.2.2 then res.2.1.insert l r else res.2.1) := by
  simp only [eagerRequest, ht, hm, if_true]
  rcases eagerChecks (eagerRequest R n) mfv (R.reduce mfv l r) (st.invoke l r mfv) false
    with _ | ⟨_ | _, st₁, m⟩ <;> simp

theorem eagerRequest_cases {l r : O} (h : eagerRequest R n st (some l) (some r) mfv = some (b, st')) :
    (R.typeIndex l ≠ R.typeIndex r ∧ b = false ∧ st' = st) ∨
    (R.typeIndex l = R.typeIndex r ∧ mapResult st.equalMapLhs st.equalMapRhs l r = some b ∧
      st' = st) ∨
    (R.typeIndex l = R.typeIndex r ∧ mapResult st.equalMapLhs st.equalMapRhs l r = none ∧
      ∃ k st₁ m, n = k + 1 ∧
        eagerChecks (eagerRequest R k) mfv (R.reduce mfv l r) (st.invoke l r mfv) false =
          some (b, st₁, m) ∧ st' = if b && m then st₁.insert l r else st₁) := by
  unfold eagerRequest at h
  split_ifs at h with ht
  · rcases hm : mapResult st.equalMapLhs st.equalMapRhs l r with _ | b'
    · rcases n with _ | k
      · simp [hm] at h
      · rcases hc : eagerChecks (eagerRequest R k) mfv (R.reduce mfv l r) (st.invoke l r mfv)
          false with _ | ⟨_ | _, st₁, m⟩ <;> simp [hm, hc] at h <;> obtain ⟨rfl, rfl⟩ := h
        · exact .inr (.inr ⟨ht, rfl, k, st₁, m, rfl, hc, by simp⟩)
        · exact .inr (.inr ⟨ht, rfl, k, st₁, m, rfl, hc, by simp⟩)
    · simp only [hm, Option.some.injEq, Prod.mk.injEq] at h
      exact .inr (.inl ⟨ht, h.1 ▸ rfl, h.2.symm⟩)
  · simp only [Option.some.injEq, Prod.mk.injEq] at h
    exact .inl ⟨ht, h.1.symm, h.2.symm⟩

end Requests

section Soundness

variable {R : Registry O} {rank : O → Nat}

variable (R rank) in
def RequestSound (n : Nat) : Prop :=
  ∀ st st' l r mfv b, eagerRequest R n st (some l) (some r) mfv = some (b, st') → st.Inv →
    Sound rank st st' (rank l + 1) (rank r + 1)

theorem eagerChecks_sound {n : Nat} (hreq : RequestSound R rank n) {mfv : Bool} {a b : Nat} :
    ∀ (cs : List (Check O)) (st st' : EagerState O) g res m,
      (∀ l r defEqual site, Check.object (some l) (some r) defEqual site ∈ cs →
        rank l < a ∧ rank r < b) →
      eagerChecks (eagerRequest R n) mfv cs st g = some (res, st', m) → st.Inv →
      Sound rank st st' a b
  | [], st, st', g, res, m, _, h, hinv => by
    simp only [eagerChecks, Option.some.injEq, Prod.mk.injEq] at h
    exact h.2.1 ▸ .refl hinv a b
  | .prim eq _ :: cs, st, st', g, res, m, hcs, h, hinv => by
    simp only [eagerChecks] at h
    split_ifs at h
    · exact eagerChecks_sound hreq cs st st' g res m
        (fun l r d site hc => hcs l r d site (.tail _ hc)) h hinv
    · simp only [Option.some.injEq, Prod.mk.injEq] at h
      exact h.2.1 ▸ .refl hinv a b
  | .object lo ro defEqual site :: cs, st, st', g, res, m, hcs, h, hinv => by
    have hrest := fun l r d site hc => hcs l r d site (List.mem_cons_of_mem _ hc)
    simp only [eagerChecks] at h
    obtain ⟨b₁, st₁, hreq₁, hs₁⟩ : ∃ b₁ st₁, eagerRequest R n st lo ro (defEqual || mfv) =
        some (b₁, st₁) ∧ Sound rank st st₁ a b := by
      rcases lo with _ | l <;> rcases ro with _ | r
      · exact ⟨_, _, eagerRequest_none_none, .refl hinv a b⟩
      · exact ⟨_, _, eagerRequest_none_some r, .refl hinv a b⟩
      · exact ⟨_, _, eagerRequest_some_none l, .refl hinv a b⟩
      · obtain ⟨hl, hr⟩ := hcs l r defEqual site (.head _)
        rcases hc : eagerRequest R n st (some l) (some r) (defEqual || mfv) with _ | ⟨b₁, st₁⟩
        · simp [hc] at h
        · exact ⟨b₁, st₁, rfl, (hreq st st₁ l r _ b₁ hc hinv).mono hl hr⟩
    rw [hreq₁] at h
    cases b₁
    · simp only [Option.some.injEq, Prod.mk.injEq] at h
      exact h.2.1 ▸ hs₁
    · exact hs₁.trans (eagerChecks_sound hreq cs st₁ st' g res m hrest h hs₁.inv)
  | .mark :: cs, st, st', g, res, m, hcs, h, hinv =>
    eagerChecks_sound hreq cs st st' true res m (fun l r d site hc => hcs l r d site (.tail _ hc))
      h hinv

/-- Every comparison of the descent keeps one partial bijection and maps only pairs below it. -/
theorem requestSound (hR : Ranked R rank) : ∀ n, RequestSound R rank n := by
  intro n
  induction n with
  | zero =>
    intro st st' l r mfv b h hinv
    rcases eagerRequest_cases h with ⟨-, -, rfl⟩ | ⟨-, -, rfl⟩ | ⟨-, -, k, -, -, hk, -⟩
    · exact .refl hinv _ _
    · exact .refl hinv _ _
    · omega
  | succ k ih =>
    intro st st' l r mfv b h hinv
    rcases eagerRequest_cases h with ⟨-, -, rfl⟩ | ⟨-, -, rfl⟩ | ⟨ht, hm, k', st₁, m, hk, hc, rfl⟩
    · exact .refl hinv _ _
    · exact .refl hinv _ _
    obtain rfl : k' = k := by omega
    have hinv₀ : (st.invoke l r mfv).Inv := hinv
    have h₁ : Sound rank (st.invoke l r mfv) st₁ (rank l) (rank r) :=
      eagerChecks_sound ih _ _ _ _ _ _ (hR mfv l r ht) hc hinv₀
    have hinvoke : Sound rank st (st.invoke l r mfv) (rank l) (rank r) :=
      ⟨hinv₀, grows_invoke st l r mfv, .refl rank _ _ _⟩
    have h₀ : Sound rank st st₁ (rank l + 1) (rank r + 1) :=
      (hinvoke.trans h₁).mono (by omega) (by omega)
    obtain ⟨hl, hr⟩ := mapResult_eq_none.1 hm
    cases hbm : (b && m)
    · simpa [hbm] using h₀
    · simp only [if_true]
      obtain ⟨hl₁, hr₁⟩ := h₁.unmapped hinv₀ hl hr
      refine ⟨h₁.inv.insert hl₁ hr₁, h₀.grows.trans (grows_insert hl₁ hr₁), fun x y hxy => ?_⟩
      by_cases hx : x = l
      · subst hx
        simp only [EagerState.insert, Function.update_same, Option.some.injEq] at hxy
        subst hxy
        exact .inr ⟨by omega, by omega⟩
      · simp only [EagerState.insert, Function.update_noteq hx] at hxy
        exact h₀.below x y hxy

theorem eagerChecks_isSome {n a : Nat}
    (hreq : ∀ st l r mfv, rank l < a → (eagerRequest R n st (some l) (some r) mfv).isSome)
    {mfv : Bool} : ∀ (cs : List (Check O)) st g,
      (∀ l r defEqual site, Check.object (some l) (some r) defEqual site ∈ cs → rank l < a) →
      (eagerChecks (eagerRequest R n) mfv cs st g).isSome
  | [], _, _, _ => rfl
  | .prim eq _ :: cs, st, g, hcs => by
    simp only [eagerChecks]
    split_ifs
    · exact eagerChecks_isSome hreq cs st g fun l r d site hc => hcs l r d site (.tail _ hc)
    · rfl
  | .object lo ro defEqual site :: cs, st, g, hcs => by
    obtain ⟨b, st₁, h₁⟩ : ∃ b st₁, eagerRequest R n st lo ro (defEqual || mfv) = some (b, st₁) := by
      rcases lo with _ | l <;> rcases ro with _ | r
      · exact ⟨_, _, eagerRequest_none_none⟩
      · exact ⟨_, _, eagerRequest_none_some r⟩
      · exact ⟨_, _, eagerRequest_some_none l⟩
      · obtain ⟨⟨b, st₁⟩, h⟩ :=
          Option.isSome_iff_exists.1 (hreq st l r (defEqual || mfv) (hcs l r defEqual site (.head _)))
        exact ⟨b, st₁, h⟩
    simp only [eagerChecks, h₁]
    cases b
    · rfl
    · exact eagerChecks_isSome hreq cs st₁ g fun l r d site hc => hcs l r d site (.tail _ hc)
  | .mark :: cs, st, _, hcs =>
    eagerChecks_isSome hreq cs st true fun l r d site hc => hcs l r d site (.tail _ hc)

theorem eagerRequest_isSome (hR : Ranked R rank) :
    ∀ n st l r mfv, rank l < n → (eagerRequest R n st (some l) (some r) mfv).isSome := by
  intro n
  induction n with
  | zero => intro _ _ _ _ h; omega
  | succ k ih =>
    intro st l r mfv hl
    by_cases ht : R.typeIndex l = R.typeIndex r
    · rcases hm : mapResult st.equalMapLhs st.equalMapRhs l r with _ | b
      · rw [eagerRequest_succ_of_open ht hm, Option.isSome_map']
        exact eagerChecks_isSome (fun st l' r' mfv h => ih st l' r' mfv (by omega)) _ _ _
          fun l' r' d site hc => (hR mfv l r ht l' r' d site hc).1
      · simp [eagerRequest_of_mapResult ht hm]
    · simp [eagerRequest_of_typeIndex_ne ht]

/-- The descent on two objects finishes with one more level of fuel than the left one's rank. -/
theorem eagerEqual_obj_isSome (hR : Ranked R rank) (l r : O) (mfv : Bool) :
    (eagerEqual R (rank l + 1) (.obj l) (.obj r) mfv).isSome :=
  eagerRequest_isSome hR _ _ l r mfv (Nat.lt_succ_self _)

end Soundness

section Earlier

variable {R : Registry O} {pre : List (O × O × Bool)}

omit [DecidableEq O] in
theorem eagerChecks_after
    {request : EagerState O → Option O → Option O → Bool → Option (Bool × EagerState O)}
    (hreq : ∀ st lo ro mfv, request (st.after pre) lo ro mfv =
      (request st lo ro mfv).map fun res => (res.1, res.2.after pre)) (mfv : Bool) :
    ∀ (cs : List (Check O)) st g, eagerChecks request mfv cs (st.after pre) g =
      (eagerChecks request mfv cs st g).map fun res => (res.1, res.2.1.after pre, res.2.2)
  | [], _, _ => rfl
  | .prim eq _ :: cs, st, g => by
    simp only [eagerChecks]
    split_ifs
    · exact eagerChecks_after hreq mfv cs st g
    · rfl
  | .object lo ro defEqual _ :: cs, st, g => by
    simp only [eagerChecks, hreq]
    rcases request st lo ro (defEqual || mfv) with _ | ⟨_ | _, st₁⟩
    · rfl
    · rfl
    · exact eagerChecks_after hreq mfv cs st₁ g
  | .mark :: cs, st, _ => eagerChecks_after hreq mfv cs st true

theorem eagerRequest_after (n : Nat) : ∀ st lo ro mfv, eagerRequest R n (st.after pre) lo ro mfv =
    (eagerRequest R n st lo ro mfv).map fun res => (res.1, res.2.after pre) := by
  induction n using Nat.strong_induction_on with
  | _ n ih =>
  rintro st (_ | l) (_ | r) mfv
  · simp
  · simp
  · simp
  by_cases ht : R.typeIndex l = R.typeIndex r
  swap
  · rw [eagerRequest_of_typeIndex_ne ht, eagerRequest_of_typeIndex_ne ht]
    rfl
  rcases hm : mapResult st.equalMapLhs st.equalMapRhs l r with _ | b
  swap
  · rw [eagerRequest_of_mapResult ht hm]
    exact eagerRequest_of_mapResult ht hm
  -- an open pair: its checks run from `st.invoke l r mfv`, preceded by `pre`
  have hm' : mapResult (st.after pre).equalMapLhs (st.after pre).equalMapRhs l r = none := hm
  rcases n with _ | n
  · simp [eagerRequest, ht, hm, hm']
  rw [eagerRequest_succ_of_open ht hm', eagerRequest_succ_of_open ht hm, invoke_after,
    eagerChecks_after (ih n (Nat.lt_succ_self n)), Option.map_map, Option.map_map]
  congr 1
  funext ⟨b, st₁, m⟩
  cases b <;> cases m <;> rfl

end Earlier

end Tvm.SEqual
