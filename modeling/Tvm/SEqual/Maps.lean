import Tvm.SEqual.Laws

namespace Tvm.SEqual

variable {O : Type}

open EagerState

/-- Reducers that call `MarkGraphNode` exactly on the node types `marks` names. -/
def Registry.MarksByType (R : Registry O) (marks : Nat → Bool) : Prop :=
  ∀ mfv l r, R.typeIndex l = R.typeIndex r →
    (Check.mark ∈ R.reduce mfv l r ↔ marks (R.typeIndex l) = true)

def ChildPair (cs : List (Check O)) (a c : O) : Prop :=
  ∃ defEqual site, Check.object (some a) (some c) defEqual site ∈ cs

/-- Modelled from the spec: the pairs of a marking type a comparison of `(l₀, r₀)` requested. -/
def Requested (R : Registry O) (marks : Nat → Bool) (invoked : List (O × O × Bool))
    (l₀ r₀ l r : O) : Prop :=
  marks (R.typeIndex l) = true ∧
    ((l = l₀ ∧ r = r₀) ∨ ∃ t ∈ invoked, ChildPair (R.reduce t.2.2 t.1 t.2.1) l r)

@[simp] theorem childPair_nil (a c : O) : ChildPair [] a c ↔ False := by
  simp [ChildPair]

@[simp] theorem childPair_prim (eq : Bool) (site : Option PathSource) (cs : List (Check O)) (a c : O) :
    ChildPair (.prim eq site :: cs) a c ↔ ChildPair cs a c := by
  simp [ChildPair]

@[simp] theorem childPair_mark (cs : List (Check O)) (a c : O) :
    ChildPair (.mark :: cs) a c ↔ ChildPair cs a c := by
  simp [ChildPair]

@[simp] theorem childPair_object (lo ro : Option O) (d : Bool) (site : PathSource)
    (cs : List (Check O)) (a c : O) :
    ChildPair (.object lo ro d site :: cs) a c ↔ (some a = lo ∧ some c = ro) ∨ ChildPair cs a c := by
  simp only [ChildPair, List.mem_cons, Check.object.injEq]
  constructor
  · rintro ⟨d', site', ⟨rfl, rfl, -⟩ | h⟩
    exacts [.inl ⟨rfl, rfl⟩, .inr ⟨d', site', h⟩]
  · rintro (⟨rfl, rfl⟩ | ⟨d', site', h⟩)
    exacts [⟨d, site, .inl ⟨rfl, rfl, rfl, rfl⟩⟩, ⟨d', site', .inr h⟩]

theorem eagerChecks_marked {request : EagerState O → Option O → Option O → Bool → Option (Bool × EagerState O)}
    {mfv : Bool} : ∀ (cs : List (Check O)) st g st' m,
      eagerChecks request mfv cs st g = some (true, st', m) → (m = true ↔ g = true ∨ Check.mark ∈ cs)
  | [], _, _, _, _, h => by
    simp only [eagerChecks, Option.some.injEq, Prod.mk.injEq] at h
    simp [h.2.2]
  | .prim eq _ :: cs, st, g, st', m, h => by
    simp only [eagerChecks] at h
    split_ifs at h
    · simpa using eagerChecks_marked cs st g st' m h
    · simp at h
  | .object lo ro d _ :: cs, st, g, st', m, h => by
    rcases hq : request st lo ro (d || mfv) with _ | ⟨_ | _, st₁⟩ <;> simp only [eagerChecks, hq] at h
    case some.mk.true => simpa using eagerChecks_marked cs st₁ g st' m h
    all_goals simp at h
  | .mark :: cs, st, _, st', m, h => by
    simpa using eagerChecks_marked cs st true st' m h

section Accounts

variable (R : Registry O) (marks : Nat → Bool)

def Recorded (st : EagerState O) (ts : List (O × O × Bool)) : Prop :=
  ∀ t ∈ ts, ∀ a c, ChildPair (R.reduce t.2.2 t.1 t.2.1) a c → marks (R.typeIndex a) = true →
    st.equalMapLhs a = some c

structure Accounts (st st' : EagerState O) (P : O → O → Prop) : Prop where
  grows : st.Grows st'
  invoked : ∃ ts, st'.invoked = st.invoked ++ ts ∧ Recorded R marks st' ts ∧
    ∀ a c, st'.equalMapLhs a = some c → st.equalMapLhs a = some c ∨
      marks (R.typeIndex a) = true ∧ (P a c ∨ ∃ t ∈ ts, ChildPair (R.reduce t.2.2 t.1 t.2.1) a c)
  own : ∀ a c, P a c → marks (R.typeIndex a) = true → st'.equalMapLhs a = some c

variable {R marks}

theorem Recorded.mono {st st' : EagerState O} {ts : List (O × O × Bool)}
    (h : Recorded R marks st ts) (hg : st.Grows st') : Recorded R marks st' ts :=
  fun t ht a c hc hm => hg.lhs a c (h t ht a c hc hm)

theorem Accounts.trans {st₁ st₂ st₃ : EagerState O} {P Q : O → O → Prop}
    (h₁ : Accounts R marks st₁ st₂ P) (h₂ : Accounts R marks st₂ st₃ Q) :
    Accounts R marks st₁ st₃ fun a c => P a c ∨ Q a c := by
  obtain ⟨ts₁, hts₁, hrec₁, hnew₁⟩ := h₁.invoked
  obtain ⟨ts₂, hts₂, hrec₂, hnew₂⟩ := h₂.invoked
  refine ⟨h₁.grows.trans h₂.grows, ⟨ts₁ ++ ts₂, by simp [hts₁, hts₂], ?_, ?_⟩, ?_⟩
  · intro t ht
    rcases List.mem_append.1 ht with ht | ht
    exacts [hrec₁.mono h₂.grows t ht, hrec₂ t ht]
  · intro a c hac
    rcases hnew₂ a c hac with h | ⟨hm, hq | ⟨t, ht, hc⟩⟩
    · rcases hnew₁ a c h with h | ⟨hm, hp | ⟨t, ht, hc⟩⟩
      · exact .inl h
      · exact .inr ⟨hm, .inl (.inl hp)⟩
      · exact .inr ⟨hm, .inr ⟨t, List.mem_append_left _ ht, hc⟩⟩
    · exact .inr ⟨hm, .inl (.inr hq)⟩
    · exact .inr ⟨hm, .inr ⟨t, List.mem_append_right _ ht, hc⟩⟩
  · rintro a c (hp | hq) hm
    exacts [h₂.grows.lhs a c (h₁.own a c hp hm), h₂.own a c hq hm]

theorem Accounts.congr {st st' : EagerState O} {P Q : O → O → Prop} (h : Accounts R marks st st' P)
    (hPQ : ∀ a c, P a c ↔ Q a c) : Accounts R marks st st' Q := by
  obtain rfl : P = Q := funext₂ fun a c => propext (hPQ a c)
  exact h

theorem Accounts.refl_of_mapped {st : EagerState O} {l r : O} (h : st.equalMapLhs l = some r) :
    Accounts R marks st st fun a c => a = l ∧ c = r where
  grows := .refl st
  invoked := ⟨[], (List.append_nil _).symm, fun t ht => absurd ht (List.not_mem_nil t),
    fun _ _ h => Or.inl h⟩
  own _ _ hp _ := hp.1 ▸ hp.2 ▸ h

theorem Accounts.nil (st : EagerState O) : Accounts R marks st st (ChildPair []) where
  grows := .refl st
  invoked := ⟨[], (List.append_nil _).symm, fun t ht => absurd ht (List.not_mem_nil t),
    fun _ _ h => Or.inl h⟩
  own _ _ h := ((childPair_nil _ _).1 h).elim

end Accounts

variable [DecidableEq O]

section Requests

variable {R : Registry O} {marks : Nat → Bool} {rank : O → Nat}

theorem eagerChecks_accounts {n : Nat} (hS : RequestSound R rank n)
    (hreq : ∀ st l r mfv st', eagerRequest R n st (some l) (some r) mfv = some (true, st') →
      st.Inv → Accounts R marks st st' fun a c => a = l ∧ c = r) {mfv : Bool} :
    ∀ (cs : List (Check O)) st g st' m, eagerChecks (eagerRequest R n) mfv cs st g = some (true, st', m) →
      st.Inv → Accounts R marks st st' (ChildPair cs)
  | [], st, g, st', m, h, _ => by
    simp only [eagerChecks, Option.some.injEq, Prod.mk.injEq] at h
    exact h.2.1 ▸ .nil st
  | .prim eq _ :: cs, st, g, st', m, h, hinv => by
    simp only [eagerChecks] at h
    split_ifs at h
    · exact (eagerChecks_accounts hS hreq cs st g st' m h hinv).congr fun a c => by simp
    · simp at h
  | .object lo ro d _ :: cs, st, g, st', m, h, hinv => by
    rcases hq : eagerRequest R n st lo ro (d || mfv) with _ | ⟨_ | _, st₁⟩ <;>
      simp only [eagerChecks, hq] at h
    case none => simp at h
    case some.mk.false => simp at h
    have hrest := eagerChecks_accounts hS hreq cs st₁ g st' m h (eagerRequest_inv hS hq hinv)
    rcases lo with _ | l <;> rcases ro with _ | r
    case some.some => exact ((hreq st l r _ st₁ hq hinv).trans hrest).congr fun a c => by simp
    all_goals
      simp only [eagerRequest_none_none, eagerRequest_none_some, eagerRequest_some_none,
        Option.some.injEq, Prod.mk.injEq] at hq
      obtain ⟨-, rfl⟩ := hq
      exact hrest.congr fun a c => by simp
  | .mark :: cs, st, _, st', m, h, hinv =>
    (eagerChecks_accounts hS hreq cs st true st' m h hinv).congr fun a c => by simp

theorem requestAccounts (hR : Ranked R rank) (hM : R.MarksByType marks) :
    ∀ n st l r mfv (st' : EagerState O), eagerRequest R n st (some l) (some r) mfv = some (true, st') →
      st.Inv → Accounts R marks st st' fun a c => a = l ∧ c = r := by
  intro n
  induction n using Nat.strong_induction_on with
  | _ n ih =>
    intro st l r mfv st' h hinv
    rcases eagerRequest_cases h with ⟨-, h, -⟩ | ⟨-, hm, rfl⟩ | ⟨ht, hm, k, st₁, m, rfl, hc, rfl⟩
    · exact nomatch h
    · exact .refl_of_mapped (mapResult_eq_some_true.1 hm)
    have hacc := eagerChecks_accounts (requestSound hR k) (ih k (by omega)) _ _ _ _ _ hc hinv
    have hmark : m = true ↔ marks (R.typeIndex l) = true :=
      (by simpa using eagerChecks_marked _ _ _ _ _ hc : m = true ↔ _).trans (hM mfv l r ht)
    obtain ⟨hl₁, hr₁⟩ := (eagerChecks_sound (requestSound hR k) _ _ _ _ _ _ (hR mfv l r ht) hc
      hinv).unmapped hinv (mapResult_eq_none.1 hm).1 (mapResult_eq_none.1 hm).2
    obtain ⟨ts, hts, hrec, hnew⟩ := hacc.invoked
    have hg : st₁.Grows (if true && m then st₁.insert l r else st₁) := by
      cases m
      exacts [.refl st₁, grows_insert hl₁ hr₁]
    refine ⟨(grows_invoke st l r mfv).trans (hacc.grows.trans hg),
      ⟨(l, r, mfv) :: ts, ?_, ?_, ?_⟩, ?_⟩
    · cases m <;> simp [hts]
    · intro t ht
      rcases List.mem_cons.1 ht with rfl | ht
      · exact fun a c hc hma => hg.lhs a c (hacc.own a c hc hma)
      · exact (hrec.mono hg) t ht
    · intro a c hac
      have hold : st₁.equalMapLhs a = some c → st.equalMapLhs a = some c ∨
          marks (R.typeIndex a) = true ∧
            (a = l ∧ c = r ∨ ∃ t ∈ (l, r, mfv) :: ts, ChildPair (R.reduce t.2.2 t.1 t.2.1) a c) :=
        fun h₁ => (hnew a c h₁).imp_right fun ⟨hma, hp⟩ =>
          ⟨hma, .inr (hp.elim (fun hc => ⟨_, List.mem_cons_self _ _, hc⟩)
            fun ⟨t, ht, hc⟩ => ⟨t, List.mem_cons_of_mem _ ht, hc⟩)⟩
      cases m
      · exact hold hac
      · by_cases ha : a = l
        · subst ha
          simp only [EagerState.insert, Function.update_same, Option.some.injEq, Bool.true_and,
            if_true] at hac
          exact .inr ⟨hmark.1 rfl, .inl ⟨rfl, hac.symm⟩⟩
        · simp only [EagerState.insert, Function.update_noteq ha, Bool.true_and, if_true] at hac
          exact hold hac
    · rintro a c ⟨rfl, rfl⟩ hma
      rw [show m = true from hmark.2 hma]
      simp [EagerState.insert]

theorem eagerEqual_maps (hR : Ranked R rank) (hM : R.MarksByType marks) {n : Nat} {l₀ r₀ : O}
    {mfv : Bool} {st' : EagerState O} (h : eagerEqual R n (.obj l₀) (.obj r₀) mfv = some (true, st'))
    (l r : O) : st'.equalMapLhs l = some r ↔ Requested R marks st'.invoked l₀ r₀ l r := by
  obtain ⟨-, ⟨ts, hts, hrec, hnew⟩, hown⟩ := requestAccounts hR hM n .empty l₀ r₀ mfv st' h inv_empty
  obtain rfl : st'.invoked = ts := hts
  constructor
  · intro hlr
    rcases hnew l r hlr with h₀ | ⟨hm, hp⟩
    · exact nomatch h₀
    · exact ⟨hm, hp⟩
  · rintro ⟨hm, hroot | ⟨t, ht, hc⟩⟩
    exacts [hown l r hroot hm, hrec t ht l r hc hm]

end Requests

theorem chainRegistry_marksByType : chainRegistry.MarksByType fun t => t == 1 := by
  intro mfv l r _
  by_cases hl : l = 0 <;> simp [chainRegistry, hl]

/-- When `Equal` returns true its remap maps hold exactly the requested pairs of a marking type. -/
theorem equal_true_maps (R : Registry O) (rank : O → Nat) (hR : Ranked R rank) (marks : Nat → Bool)
    (hM : R.MarksByType marks) (cfg : Config) (hA : cfg.assertMode = false) {l₀ r₀ : O} {mfv : Bool}
    {fuel : Nat} {s' : Handler O} (h : equal R cfg fuel .init (.obj l₀) (.obj r₀) mfv = .stop true s') :
    (∀ l r, s'.equalMapLhs l = some r ↔ Requested R marks s'.invoked l₀ r₀ l r) ∧
    (∀ l r, s'.equalMapRhs r = some l ↔ Requested R marks s'.invoked l₀ r₀ l r) ∧
    (∀ l r r', Requested R marks s'.invoked l₀ r₀ l r → Requested R marks s'.invoked l₀ r₀ l r' →
      r = r') ∧
    (∀ l l' r, Requested R marks s'.invoked l₀ r₀ l r → Requested R marks s'.invoked l₀ r₀ l' r →
      l = l') := by
  obtain ⟨⟨b, st'⟩, he⟩ := Option.isSome_iff_exists.1 (eagerEqual_obj_isSome hR l₀ r₀ mfv)
  obtain ⟨fuel', s₁, hs₁, -, hsame⟩ := equal_of_eagerEqual R hA hR .init rfl rfl he
  obtain ⟨rfl, rfl⟩ := equal_det R cfg hs₁ h
  obtain ⟨hinvoked, hlhs, hrhs⟩ := hsame rfl
  have hL := eagerEqual_maps hR hM he
  have hI : st'.Inv := (requestSound hR _ _ _ _ _ _ _ he inv_empty).inv
  rw [hinvoked, hlhs, hrhs]
  refine ⟨hL, fun l r => (hI l r).symm.trans (hL l r), fun l r r' h₁ h₂ => ?_, fun l l' r h₁ h₂ => ?_⟩
  · exact Option.some.inj (((hL l r).2 h₁).symm.trans ((hL l r').2 h₂))
  · exact Option.some.inj (((hI l r).1 ((hL l r).2 h₁)).symm.trans ((hI l' r).1 ((hL l' r).2 h₂)))

theorem equal_true_maps_chain : Ranked chainRegistry id ∧
    chainRegistry.MarksByType (fun t => t == 1) ∧ (⟨false, true, false⟩ : Config).assertMode = false ∧
    ∃ s', equal chainRegistry ⟨false, true, false⟩ 10 .init (.obj 2) (.obj 2) false = .stop true s' ∧
      (∀ l r, s'.equalMapLhs l = some r ↔ Requested chainRegistry (fun t => t == 1) s'.invoked 2 2 l r) ∧
      (∀ l r, s'.equalMapRhs r = some l ↔ Requested chainRegistry (fun t => t == 1) s'.invoked 2 2 l r) ∧
      (∀ l r r', Requested chainRegistry (fun t => t == 1) s'.invoked 2 2 l r →
        Requested chainRegistry (fun t => t == 1) s'.invoked 2 2 l r' → r = r') ∧
      (∀ l l' r, Requested chainRegistry (fun t => t == 1) s'.invoked 2 2 l r →
        Requested chainRegistry (fun t => t == 1) s'.invoked 2 2 l' r → l = l') :=
  ⟨chainRegistry_ranked, chainRegistry_marksByType, rfl, _, rfl,
    @equal_true_maps Nat _ chainRegistry id chainRegistry_ranked _ chainRegistry_marksByType
      ⟨false, true, false⟩ rfl 2 2 false 10 _ rfl⟩

end Tvm.SEqual
