import Tvm.SEqual.Laws

namespace Tvm.SEqual

variable {O : Type}

open EagerState

/-- Modelled from the spec: one field of a node as a structural reducer compares it. -/
inductive Field (O : Type) where
  | prim (value : Nat)
  | child (obj : Option O) (defEqual : Bool)
  | mark
  | freeVar

inductive Field.Matches : Field O → Field O → Prop
  | prim (v w : Nat) : Matches (.prim v) (.prim w)
  | child (c c' : Option O) (defEqual : Bool) : Matches (.child c defEqual) (.child c' defEqual)
  | mark : Matches .mark .mark
  | freeVar : Matches .freeVar .freeVar

/-- Nodes of one type have fields of the same kinds in the same order. -/
def FieldsByType (typeIndex : O → Nat) (fields : O → List (Field O)) : Prop :=
  ∀ l r, typeIndex l = typeIndex r → List.Forall₂ Field.Matches (fields l) (fields r)

inductive ChecksCompose : List (Check O) → List (Check O) → List (Check O) → Prop
  | nil : ChecksCompose [] [] []
  | prim {p₁ p₂ p₃ : Bool} {s₁ s₂ s₃ : Option PathSource} {cs₁ cs₂ cs₃ : List (Check O)} :
      (p₁ = true → p₂ = true → p₃ = true) → ChecksCompose cs₁ cs₂ cs₃ →
      ChecksCompose (.prim p₁ s₁ :: cs₁) (.prim p₂ s₂ :: cs₂) (.prim p₃ s₃ :: cs₃)
  | object {x y z : Option O} {d : Bool} {t₁ t₂ t₃ : PathSource} {cs₁ cs₂ cs₃ : List (Check O)} :
      ChecksCompose cs₁ cs₂ cs₃ →
      ChecksCompose (.object x y d t₁ :: cs₁) (.object y z d t₂ :: cs₂) (.object x z d t₃ :: cs₃)
  | mark {cs₁ cs₂ cs₃ : List (Check O)} : ChecksCompose cs₁ cs₂ cs₃ →
      ChecksCompose (.mark :: cs₁) (.mark :: cs₂) (.mark :: cs₃)

/-- Reducers whose checks for three objects of one type compose. -/
def Registry.Transitive (R : Registry O) : Prop :=
  ∀ mfv a b c, R.typeIndex a = R.typeIndex b → R.typeIndex b = R.typeIndex c →
    ChecksCompose (R.reduce mfv a b) (R.reduce mfv b c) (R.reduce mfv a c)

structure Composed (st₁ st₂ st₃ : EagerState O) : Prop where
  lhs : ∀ x, st₃.equalMapLhs x = (st₁.equalMapLhs x).bind st₂.equalMapLhs
  rhs : ∀ z, st₃.equalMapRhs z = (st₂.equalMapRhs z).bind st₁.equalMapRhs
  mid : ∀ y, (st₁.equalMapRhs y).isSome = (st₂.equalMapLhs y).isSome

theorem Composed.empty : Composed (empty : EagerState O) empty empty :=
  ⟨fun _ => rfl, fun _ => rfl, fun _ => rfl⟩

theorem Composed.invoke {st₁ st₂ st₃ : EagerState O} (hJ : Composed st₁ st₂ st₃) (a b c : O)
    (mfv : Bool) : Composed (st₁.invoke a b mfv) (st₂.invoke b c mfv) (st₃.invoke a c mfv) :=
  ⟨hJ.lhs, hJ.rhs, hJ.mid⟩

variable [DecidableEq O]

/-- Modelled from the spec: the check a structural reducer makes for one pair of fields. -/
def compareField (mfv : Bool) (l r : O) : Field O → Field O → Check O
  | .prim v, .prim w => .prim (v == w) none
  | .child c d, .child c' _ => .object c c' d (.attrs none none)
  | .mark, .mark => .mark
  | .freeVar, .freeVar => .prim (mfv || decide (l = r)) none
  | _, _ => .prim false none

/-- Modelled from the spec: structural reducers, comparing fields position by position. -/
def Registry.structural (typeIndex : O → Nat) (fields : O → List (Field O)) : Registry O where
  typeIndex := typeIndex
  reduce mfv l r := List.zipWith (compareField mfv l r) (fields l) (fields r)

theorem checksCompose_zipWith {mfv : Bool} {a b c : O} {fa fb fc : List (Field O)}
    (h₁ : List.Forall₂ Field.Matches fa fb) (h₂ : List.Forall₂ Field.Matches fb fc) :
    ChecksCompose (List.zipWith (compareField mfv a b) fa fb)
      (List.zipWith (compareField mfv b c) fb fc) (List.zipWith (compareField mfv a c) fa fc) := by
  induction h₁ generalizing fc with
  | nil => cases h₂; exact .nil
  | cons hm _ ih =>
    cases h₂ with
    | cons hm' hs =>
      cases hm <;> cases hm' <;> simp only [List.zipWith_cons_cons, compareField]
      · exact .prim (by simp only [beq_iff_eq]; exact Eq.trans) (ih hs)
      · exact .object (ih hs)
      · exact .mark (ih hs)
      · exact .prim (by cases mfv <;> simp; exact Eq.trans) (ih hs)

theorem structural_transitive {typeIndex : O → Nat} {fields : O → List (Field O)}
    (hF : FieldsByType typeIndex fields) : (Registry.structural typeIndex fields).Transitive :=
  fun _ a b c hab hbc => checksCompose_zipWith (hF a b hab) (hF b c hbc)

section Composition

variable {st₁ st₂ st₃ : EagerState O}

theorem mapResult_compose (hJ : Composed st₁ st₂ st₃) (hinv₁ : st₁.Inv) (a b c : O)
    (h₁ : mapResult st₁.equalMapLhs st₁.equalMapRhs a b ≠ some false)
    (h₂ : mapResult st₂.equalMapLhs st₂.equalMapRhs b c ≠ some false) :
    mapResult st₂.equalMapLhs st₂.equalMapRhs b c = mapResult st₁.equalMapLhs st₁.equalMapRhs a b ∧
      mapResult st₃.equalMapLhs st₃.equalMapRhs a c =
        mapResult st₁.equalMapLhs st₁.equalMapRhs a b := by
  unfold mapResult at *
  rw [hJ.lhs a, hJ.rhs c]
  cases ha : st₁.equalMapLhs a with
  | some b' =>
    obtain rfl : b' = b := by simpa [ha] using h₁
    obtain ⟨c', hc'⟩ := Option.isSome_iff_exists.1
      ((hJ.mid b').symm.trans (by simp [(hinv₁ a b').1 ha]) : (st₂.equalMapLhs b').isSome = true)
    obtain rfl : c' = c := by simpa [hc'] using h₂
    simp [hc']
  | none =>
    have hb : st₁.equalMapRhs b = none := by
      cases hb : st₁.equalMapRhs b <;> simp_all
    have hb₂ : st₂.equalMapLhs b = none := by
      simpa [hb] using (hJ.mid b).symm
    have hc : st₂.equalMapRhs c = none := by
      cases hc : st₂.equalMapRhs c <;> simp_all
    simp [hb, hb₂, hc]

theorem Composed.insert (hJ : Composed st₁ st₂ st₃) (hinv₁ : st₁.Inv) (hinv₂ : st₂.Inv) {a b c : O}
    (h₁ : st₁.equalMapRhs b = none) (h₂ : st₂.equalMapLhs b = none) :
    Composed (st₁.insert a b) (st₂.insert b c) (st₃.insert a c) := by
  refine ⟨fun x => ?_, fun z => ?_, fun y => ?_⟩
  · by_cases hx : x = a
    · subst hx
      simp [EagerState.insert]
    · have hxb : st₁.equalMapLhs x ≠ some b := fun h => by simp [(hinv₁ x b).1 h] at h₁
      simp only [EagerState.insert, Function.update_noteq hx, hJ.lhs x]
      cases hy : st₁.equalMapLhs x with
      | none => rfl
      | some y =>
        have hyb : y ≠ b := fun h => hxb (h ▸ hy)
        simp [Function.update_noteq hyb]
  · by_cases hz : z = c
    · subst hz
      simp [EagerState.insert]
    · have hzb : st₂.equalMapRhs z ≠ some b := fun h => by simp [(hinv₂ b z).2 h] at h₂
      simp only [EagerState.insert, Function.update_noteq hz, hJ.rhs z]
      cases hy : st₂.equalMapRhs z with
      | none => rfl
      | some y =>
        have hyb : y ≠ b := fun h => hzb (h ▸ hy)
        simp [Function.update_noteq hyb]
  · by_cases hy : y = b
    · subst hy
      simp [EagerState.insert]
    · simpa [EagerState.insert, Function.update_noteq hy] using hJ.mid y

end Composition

section Requests

variable {R : Registry O} {rank : O → Nat}

variable (R) in
def RequestCompose (n n' : Nat) : Prop :=
  ∀ st₁ st₂ st₃ a b c mfv st₁' st₂', st₁.Inv → st₂.Inv → Composed st₁ st₂ st₃ →
    eagerRequest R n st₁ (some a) (some b) mfv = some (true, st₁') →
    eagerRequest R n' st₂ (some b) (some c) mfv = some (true, st₂') →
    ∃ st₃', eagerRequest R n st₃ (some a) (some c) mfv = some (true, st₃') ∧ Composed st₁' st₂' st₃'

theorem eagerChecks_compose {n n' : Nat} (hS : RequestSound R rank n) (hS' : RequestSound R rank n')
    (hreq : RequestCompose R n n') {mfv : Bool} {cs₁ cs₂ cs₃ : List (Check O)}
    (hcs : ChecksCompose cs₁ cs₂ cs₃) :
    ∀ st₁ st₂ st₃ g st₁' st₂' m₁ m₂, st₁.Inv → st₂.Inv → Composed st₁ st₂ st₃ →
      eagerChecks (eagerRequest R n) mfv cs₁ st₁ g = some (true, st₁', m₁) →
      eagerChecks (eagerRequest R n') mfv cs₂ st₂ g = some (true, st₂', m₂) →
      ∃ st₃', eagerChecks (eagerRequest R n) mfv cs₃ st₃ g = some (true, st₃', m₁) ∧
        Composed st₁' st₂' st₃' ∧ m₂ = m₁ := by
  induction hcs with
  | nil =>
    intro _ _ st₃ _ _ _ _ _ _ _ hJ h₁ h₂
    simp only [eagerChecks, Option.some.injEq, Prod.mk.injEq] at h₁ h₂
    obtain ⟨-, rfl, rfl⟩ := h₁
    obtain ⟨-, rfl, rfl⟩ := h₂
    exact ⟨st₃, rfl, hJ, rfl⟩
  | prim hp _ ih =>
    intro st₁ st₂ st₃ g st₁' st₂' m₁ m₂ hinv₁ hinv₂ hJ h₁ h₂
    simp only [eagerChecks] at h₁ h₂ ⊢
    split_ifs at h₁ h₂ with hp₁ hp₂
    · rw [if_pos (hp hp₁ hp₂)]
      exact ih st₁ st₂ st₃ g st₁' st₂' m₁ m₂ hinv₁ hinv₂ hJ h₁ h₂
    all_goals simp at h₁ h₂
  | @object x y z d _ _ _ _ _ _ _ ih =>
    intro st₁ st₂ st₃ g st₁' st₂' m₁ m₂ hinv₁ hinv₂ hJ h₁ h₂
    simp only [eagerChecks] at h₁ h₂ ⊢
    rcases hq₁ : eagerRequest R n st₁ x y (d || mfv) with _ | ⟨_ | _, st₁₁⟩ <;>
      simp only [hq₁] at h₁
    case none => simp at h₁
    case some.mk.false => simp at h₁
    rcases hq₂ : eagerRequest R n' st₂ y z (d || mfv) with _ | ⟨_ | _, st₂₁⟩ <;>
      simp only [hq₂] at h₂
    case none => simp at h₂
    case some.mk.false => simp at h₂
    obtain ⟨st₃₁, hq₃, hJ₁⟩ : ∃ st₃₁, eagerRequest R n st₃ x z (d || mfv) = some (true, st₃₁) ∧
        Composed st₁₁ st₂₁ st₃₁ := by
      rcases x with _ | a <;> rcases y with _ | b <;> rcases z with _ | c
      case some.some.some => exact hreq st₁ st₂ st₃ a b c _ st₁₁ st₂₁ hinv₁ hinv₂ hJ hq₁ hq₂
      all_goals
        simp only [eagerRequest_none_none, eagerRequest_none_some, eagerRequest_some_none,
          Option.some.injEq, Prod.mk.injEq, Bool.false_eq_true, false_and, true_and] at hq₁ hq₂ <;>
        (subst hq₁ hq₂; exact ⟨st₃, eagerRequest_none_none, hJ⟩)
    rw [hq₃]
    exact ih st₁₁ st₂₁ st₃₁ g st₁' st₂' m₁ m₂ (eagerRequest_inv hS hq₁ hinv₁)
      (eagerRequest_inv hS' hq₂ hinv₂) hJ₁ h₁ h₂
  | mark _ ih =>
    intro st₁ st₂ st₃ _ st₁' st₂' m₁ m₂ hinv₁ hinv₂ hJ h₁ h₂
    exact ih st₁ st₂ st₃ true st₁' st₂' m₁ m₂ hinv₁ hinv₂ hJ h₁ h₂

theorem requestCompose (hR : Ranked R rank) (hT : R.Transitive) : ∀ n n', RequestCompose R n n' := by
  intro n
  induction n using Nat.strong_induction_on with
  | _ n ih =>
    intro n' st₁ st₂ st₃ a b c mfv st₁' st₂' hinv₁ hinv₂ hJ h₁ h₂
    have hne : ∀ {b : Bool} {o : Option Bool}, o = some b → b = true → o ≠ some false :=
      fun h hb => by subst hb; simp [h]
    rcases eagerRequest_cases h₁ with ⟨-, h, -⟩ | ⟨ht₁, hm₁, rfl⟩ |
      ⟨ht₁, hm₁, k, st₁c, m₁, rfl, hc₁, rfl⟩ <;>
    rcases eagerRequest_cases h₂ with ⟨-, h', -⟩ | ⟨ht₂, hm₂, rfl⟩ |
      ⟨ht₂, hm₂, k', st₂c, m₂, rfl, hc₂, rfl⟩
    all_goals first | exact nomatch h | exact nomatch h' | skip
    · -- both pairs decided by a lookup
      obtain ⟨-, hm₃⟩ := mapResult_compose hJ hinv₁ a b c (hne hm₁ rfl) (hne hm₂ rfl)
      exact ⟨st₃, eagerRequest_of_mapResult (ht₁.trans ht₂) (hm₃.trans hm₁), hJ⟩
    · -- a lookup decides `(a, b)` but not `(b, c)`: impossible in composed states
      have := (mapResult_compose hJ hinv₁ a b c (hne hm₁ rfl) (by simp [hm₂])).1
      rw [hm₁, hm₂] at this
      exact nomatch this
    · have := (mapResult_compose hJ hinv₁ a b c (by simp [hm₁]) (hne hm₂ rfl)).1
      rw [hm₁, hm₂] at this
      exact nomatch this
    · -- both pairs reduced: the reducers of `(a, b)`, `(b, c)` and `(a, c)` run in step
      obtain ⟨-, hm₃⟩ := mapResult_compose hJ hinv₁ a b c (by simp [hm₁]) (by simp [hm₂])
      obtain ⟨st₃c, hc₃, hJc, hm⟩ := eagerChecks_compose (requestSound hR k) (requestSound hR k')
        (ih k (by omega) k') (hT mfv a b c ht₁ ht₂) (st₁.invoke a b mfv) (st₂.invoke b c mfv)
        (st₃.invoke a c mfv) false _ _ _ _ hinv₁ hinv₂ (hJ.invoke a b c mfv) hc₁ hc₂
      have hS₁ := eagerChecks_sound (requestSound hR k) _ _ _ _ _ _ (hR mfv a b ht₁) hc₁ hinv₁
      have hS₂ := eagerChecks_sound (requestSound hR k') _ _ _ _ _ _ (hR mfv b c ht₂) hc₂ hinv₂
      obtain ⟨-, hb₁⟩ := hS₁.unmapped hinv₁ (mapResult_eq_none.1 hm₁).1 (mapResult_eq_none.1 hm₁).2
      obtain ⟨hb₂, -⟩ := hS₂.unmapped hinv₂ (mapResult_eq_none.1 hm₂).1 (mapResult_eq_none.1 hm₂).2
      refine ⟨_, by rw [eagerRequest_succ_of_open (ht₁.trans ht₂) (hm₃.trans hm₁), hc₃]; rfl, ?_⟩
      rw [hm]
      cases m₁
      · exact hJc
      · exact hJc.insert hS₁.inv hS₂.inv hb₁ hb₂

/-- With transitive reducers on acyclic graphs the descent's verdict true composes. -/
theorem eagerEqual_compose (hR : Ranked R rank) (hT : R.Transitive) {n n' : Nat} {a b c : O}
    {mfv : Bool} {st₁ st₂ : EagerState O} (h₁ : eagerEqual R n (.obj a) (.obj b) mfv = some (true, st₁))
    (h₂ : eagerEqual R n' (.obj b) (.obj c) mfv = some (true, st₂)) :
    ∃ st₃, eagerEqual R n (.obj a) (.obj c) mfv = some (true, st₃) := by
  obtain ⟨st₃, h, -⟩ := requestCompose hR hT n n' .empty .empty .empty a b c mfv st₁ st₂ inv_empty
    inv_empty .empty h₁ h₂
  exact ⟨st₃, h⟩

theorem eagerEqual_of_equal (hR : Ranked R rank) {cfg : Config} (hA : cfg.assertMode = false)
    {l r : O} {mfv b : Bool} {fuel : Nat} {s' : Handler O}
    (h : equal R cfg fuel .init (.obj l) (.obj r) mfv = .stop b s') :
    ∃ st', eagerEqual R (rank l + 1) (.obj l) (.obj r) mfv = some (b, st') := by
  obtain ⟨⟨b', st'⟩, he⟩ := Option.isSome_iff_exists.1 (eagerEqual_obj_isSome hR l r mfv)
  obtain ⟨fuel', s'', hs'', -⟩ := equal_of_eagerEqual R hA hR .init rfl rfl he
  obtain ⟨rfl, -⟩ := equal_det R cfg hs'' h
  exact ⟨st', he⟩

end Requests

/-- Three chains: `n ≥ 3` holds `n / 3` and has the child `n - 3`; `0`, `1`, `2` are leaves. -/
def chainsTypeIndex (n : Nat) : Nat := if n < 3 then 0 else 1

def chainsFields (n : Nat) : List (Field Nat) :=
  if n < 3 then [] else [.mark, .prim (n / 3), .child (some (n - 3)) false]

theorem chainsFields_byType : FieldsByType chainsTypeIndex chainsFields := by
  intro l r h
  simp only [chainsTypeIndex, chainsFields] at h ⊢
  split_ifs at h ⊢ with hl hr hr
  · exact .nil
  · exact .cons .mark (.cons (.prim _ _) (.cons (.child _ _ _) .nil))

theorem chains_ranked : Ranked (Registry.structural chainsTypeIndex chainsFields) id := by
  intro mfv l r ht l' r' d site h
  simp only [Registry.structural, chainsTypeIndex, chainsFields] at ht h
  split_ifs at ht h with hl hr <;>
    simp only [List.zipWith_same, List.zipWith_cons_cons, compareField, List.map_nil,
      List.not_mem_nil, List.mem_cons, reduceCtorEq, List.mem_singleton, Check.object.injEq,
      Option.some.injEq, false_or, or_false] at h
  obtain ⟨rfl, rfl, -⟩ := h
  exact ⟨by simp only [id]; omega, by simp only [id]; omega⟩

/-- `Equal` is transitive for structural reducers on acyclic graphs. -/
theorem equal_transitive (typeIndex : O → Nat) (fields : O → List (Field O))
    (hF : FieldsByType typeIndex fields) (rank : O → Nat)
    (hR : Ranked (Registry.structural typeIndex fields) rank) (cfg : Config)
    (hA : cfg.assertMode = false) {a b c : O} {mfv : Bool} {fuel₁ fuel₂ : Nat} {s₁ s₂ : Handler O}
    (h₁ : equal (.structural typeIndex fields) cfg fuel₁ .init (.obj a) (.obj b) mfv = .stop true s₁)
    (h₂ : equal (.structural typeIndex fields) cfg fuel₂ .init (.obj b) (.obj c) mfv = .stop true s₂) :
    ∃ fuel s, equal (.structural typeIndex fields) cfg fuel .init (.obj a) (.obj c) mfv =
      .stop true s := by
  obtain ⟨st₁, he₁⟩ := eagerEqual_of_equal hR hA h₁
  obtain ⟨st₂, he₂⟩ := eagerEqual_of_equal hR hA h₂
  obtain ⟨st₃, he₃⟩ := eagerEqual_compose hR (structural_transitive hF) he₁ he₂
  obtain ⟨fuel, s, hs, -⟩ := equal_of_eagerEqual _ hA hR .init rfl rfl he₃
  exact ⟨fuel, s, hs⟩

theorem equal_transitive_chains : FieldsByType chainsTypeIndex chainsFields ∧
    Ranked (Registry.structural chainsTypeIndex chainsFields) id ∧
    (⟨false, true, true⟩ : Config).assertMode = false ∧
    ∃ s₁ s₂, equal (.structural chainsTypeIndex chainsFields) ⟨false, true, true⟩ 20 .init
        (.obj 6) (.obj 7) true = .stop true s₁ ∧
      equal (.structural chainsTypeIndex chainsFields) ⟨false, true, true⟩ 20 .init
        (.obj 7) (.obj 8) true = .stop true s₂ ∧
      ∃ fuel s, equal (.structural chainsTypeIndex chainsFields) ⟨false, true, true⟩ fuel .init
        (.obj 6) (.obj 8) true = .stop true s :=
  ⟨chainsFields_byType, chains_ranked, rfl, _, _, rfl, rfl,
    @equal_transitive Nat _ chainsTypeIndex chainsFields chainsFields_byType id chains_ranked
      ⟨false, true, true⟩ rfl 6 7 8 true 20 20 _ _ rfl rfl⟩

end Tvm.SEqual
