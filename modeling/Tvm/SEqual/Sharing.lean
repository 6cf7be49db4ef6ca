import Tvm.SEqual.Maps

namespace Tvm.SEqual

variable {O : Type}

open EagerState

/-- The invocations reduce no marking pair twice. -/
def MarkedOnce (R : Registry O) (invoked : List (O × O × Bool)) : Prop :=
  invoked.Pairwise fun x y => x.1 = y.1 → x.2.1 = y.2.1 → Check.mark ∉ R.reduce x.2.2 x.1 x.2.1

def MarksSettled (R : Registry O) (rank : O → Nat) (st : EagerState O) (a : Nat) : Prop :=
  ∀ x ∈ st.invoked, Check.mark ∈ R.reduce x.2.2 x.1 x.2.1 →
    st.equalMapLhs x.1 = some x.2.1 ∨ a ≤ rank x.1

theorem MarkedOnce.invoke {R : Registry O} {rank : O → Nat} {st : EagerState O} {a : Nat}
    {l : O} (hO : MarkedOnce R st.invoked) (hM : MarksSettled R rank st a)
    (hl : st.equalMapLhs l = none) (hla : rank l < a) (r : O) (mfv : Bool) :
    MarkedOnce R (st.invoke l r mfv).invoked := by
  refine List.pairwise_append.2 ⟨hO, List.pairwise_singleton _ _, fun x hx y hy => ?_⟩
  rw [List.mem_singleton.1 hy]
  rintro rfl rfl hmark
  rcases hM x hx hmark with h' | h'
  · simp [hl] at h'
  · omega

theorem MarksSettled.invoke {R : Registry O} {rank : O → Nat} {st : EagerState O} {a : Nat} {l r : O}
    (hM : MarksSettled R rank st a) (hla : rank l < a) (mfv : Bool) :
    MarksSettled R rank (st.invoke l r mfv) (rank l) := by
  intro x hx hmark
  rcases List.mem_append.1 hx with hx | hx
  · exact (hM x hx hmark).imp_right (by omega)
  · rw [List.mem_singleton.1 hx]
    exact .inr (Nat.le_refl _)

variable [DecidableEq O] {R : Registry O} {rank : O → Nat}

variable (R rank) in
def RequestOnce (n : Nat) : Prop :=
  ∀ st st' l r mfv b a, eagerRequest R n st (some l) (some r) mfv = some (b, st') → st.Inv →
    rank l < a → MarksSettled R rank st a → MarkedOnce R st.invoked →
    MarkedOnce R st'.invoked ∧ (b = true → MarksSettled R rank st' a) ∧
      ∀ x ∈ st'.invoked, x ∈ st.invoked ∨ rank x.1 ≤ rank l

theorem eagerChecks_once {n : Nat} (hS : RequestSound R rank n) (hreq : RequestOnce R rank n)
    {mfv : Bool} {a : Nat} : ∀ (cs : List (Check O)) st g b st' m,
      (∀ l r d site, Check.object (some l) (some r) d site ∈ cs → rank l < a) →
      eagerChecks (eagerRequest R n) mfv cs st g = some (b, st', m) → st.Inv →
      MarksSettled R rank st a → MarkedOnce R st.invoked →
      MarkedOnce R st'.invoked ∧ (b = true → MarksSettled R rank st' a) ∧
        ∀ x ∈ st'.invoked, x ∈ st.invoked ∨ rank x.1 < a
  | [], st, g, b, st', m, _, h, _, hM, hO => by
    simp only [eagerChecks, Option.some.injEq, Prod.mk.injEq] at h
    obtain ⟨-, rfl, -⟩ := h
    exact ⟨hO, fun _ => hM, fun x hx => .inl hx⟩
  | .prim eq _ :: cs, st, g, b, st', m, hcs, h, hinv, hM, hO => by
    simp only [eagerChecks] at h
    split_ifs at h
    · exact eagerChecks_once hS hreq cs st g b st' m (fun l r d site hc => hcs l r d site (.tail _ hc))
        h hinv hM hO
    · simp only [Option.some.injEq, Prod.mk.injEq] at h
      obtain ⟨-, rfl, -⟩ := h
      exact ⟨hO, fun _ => hM, fun x hx => .inl hx⟩
  | .object lo ro d site :: cs, st, g, b, st', m, hcs, h, hinv, hM, hO => by
    -- the child comparison, then the rest of the checks from where it left the state
    obtain ⟨b₁, st₁, hq, hO₁, hM₁, hnew₁⟩ : ∃ b₁ st₁,
        eagerRequest R n st lo ro (d || mfv) = some (b₁, st₁) ∧ MarkedOnce R st₁.invoked ∧
          (b₁ = true → MarksSettled R rank st₁ a) ∧
          ∀ x ∈ st₁.invoked, x ∈ st.invoked ∨ rank x.1 < a := by
      rcases lo with _ | l <;> rcases ro with _ | r
      · exact ⟨_, _, eagerRequest_none_none, hO, fun _ => hM, fun x hx => .inl hx⟩
      · exact ⟨_, _, eagerRequest_none_some r, hO, fun _ => hM, fun x hx => .inl hx⟩
      · exact ⟨_, _, eagerRequest_some_none l, hO, fun _ => hM, fun x hx => .inl hx⟩
      · have hl := hcs l r d site (.head _)
        rcases hq : eagerRequest R n st (some l) (some r) (d || mfv) with _ | ⟨b₁, st₁⟩
        · simp [eagerChecks, hq] at h
        obtain ⟨hO₁, hM₁, hnew₁⟩ := hreq st st₁ l r _ b₁ a hq hinv hl hM hO
        exact ⟨b₁, st₁, rfl, hO₁, hM₁, fun x hx => (hnew₁ x hx).imp_right (by omega)⟩
    simp only [eagerChecks, hq] at h
    cases b₁
    · simp only [Option.some.injEq, Prod.mk.injEq] at h
      obtain ⟨rfl, rfl, -⟩ := h
      exact ⟨hO₁, fun hb => Bool.noConfusion hb, hnew₁⟩
    · obtain ⟨hO', hM', hnew'⟩ := eagerChecks_once hS hreq cs st₁ g b st' m
        (fun l r d site hc => hcs l r d site (.tail _ hc)) h (eagerRequest_inv hS hq hinv)
        (hM₁ rfl) hO₁
      exact ⟨hO', hM', fun x hx => (hnew' x hx).elim (hnew₁ x) .inr⟩
  | .mark :: cs, st, _, b, st', m, hcs, h, hinv, hM, hO =>
    eagerChecks_once hS hreq cs st true b st' m (fun l r d site hc => hcs l r d site (.tail _ hc))
      h hinv hM hO

/-- Every comparison of the descent reduces no marking pair twice. -/
theorem requestOnce (hR : Ranked R rank) : ∀ n, RequestOnce R rank n := by
  intro n
  induction n using Nat.strong_induction_on with
  | _ n ih =>
    intro st st' l r mfv b a h hinv hla hM hO
    rcases eagerRequest_cases h with ⟨-, -, rfl⟩ | ⟨-, -, rfl⟩ | ⟨ht, hm, k, st₁, m, rfl, hc, rfl⟩
    · exact ⟨hO, fun _ => hM, fun x hx => .inl hx⟩
    · exact ⟨hO, fun _ => hM, fun x hx => .inl hx⟩
    obtain ⟨hl, hr⟩ := mapResult_eq_none.1 hm
    have hO₀ := hO.invoke hM hl hla r mfv
    have hM₀ : MarksSettled R rank (st.invoke l r mfv) (rank l) := hM.invoke hla mfv
    have hinv₀ : (st.invoke l r mfv).Inv := hinv
    obtain ⟨hO₁, hM₁, hnew₁⟩ := eagerChecks_once (requestSound hR k) (ih k (by omega)) _ _ _ _ _ _
      (fun l' r' d site hc => (hR mfv l r ht l' r' d site hc).1) hc hinv₀ hM₀ hO₀
    have hS₁ := eagerChecks_sound (requestSound hR k) _ _ _ _ _ _ (hR mfv l r ht) hc hinv₀
    obtain ⟨hl₁, hr₁⟩ := hS₁.unmapped hinv₀ hl hr
    have hgrows : st.Grows (if b && m then st₁.insert l r else st₁) :=
      (requestSound hR (k + 1) st _ l r mfv b h hinv).grows
    have hinvoked : (if b && m then st₁.insert l r else st₁).invoked = st₁.invoked := by
      split <;> rfl
    refine ⟨hinvoked ▸ hO₁, fun hb => ?_, fun x hx => ?_⟩
    · subst hb
      have hg₁ : st₁.Grows (if true && m then st₁.insert l r else st₁) := by
        cases m
        exacts [.refl st₁, grows_insert hl₁ hr₁]
      intro x hx hmark
      rw [hinvoked] at hx
      rcases hnew₁ x hx with hx₀ | hlt
      · rcases List.mem_append.1 hx₀ with hx₀ | hx₀
        · exact (hM x hx₀ hmark).imp_left (hgrows.lhs _ _)
        · -- the pair itself: its checks reached `MarkGraphNode`, so it was added to the maps
          obtain rfl := List.mem_singleton.1 hx₀
          have hm : m = true := (eagerChecks_marked _ _ _ _ _ hc).2 (.inr hmark)
          subst hm
          exact .inl (by simp [EagerState.insert])
      · rcases hM₁ rfl x hx hmark with h' | h'
        · exact .inl (hg₁.lhs _ _ h')
        · omega
    · rw [hinvoked] at hx
      rcases hnew₁ x hx with hx₀ | hlt
      · rcases List.mem_append.1 hx₀ with hx₀ | hx₀
        · exact .inl hx₀
        · rw [List.mem_singleton.1 hx₀]
          exact .inr (Nat.le_refl _)
      · exact .inr (Nat.le_of_lt hlt)

theorem eagerEqual_markedOnce (hR : Ranked R rank) {n : Nat} {l r : O} {mfv b : Bool}
    {st' : EagerState O} (h : eagerEqual R n (.obj l) (.obj r) mfv = some (b, st')) :
    MarkedOnce R st'.invoked :=
  (requestOnce hR n .empty st' l r mfv b (rank l + 1) h inv_empty (Nat.lt_succ_self _)
    (fun _ hx => nomatch hx) List.Pairwise.nil).1

/-- On acyclic graphs `Equal` reduces each pair whose reducer marks it at most once. -/
theorem equal_reduces_marked_once (R : Registry O) (rank : O → Nat) (hR : Ranked R rank)
    (cfg : Config) (hA : cfg.assertMode = false) (l r : O) (mfv : Bool) {fuel : Nat} {b : Bool}
    {s' : Handler O} (h : equal R cfg fuel .init (.obj l) (.obj r) mfv = .stop b s') :
    MarkedOnce R s'.invoked := by
  obtain ⟨⟨b', st'⟩, he⟩ := Option.isSome_iff_exists.1 (eagerEqual_obj_isSome hR l r mfv)
  obtain ⟨fuel', s₁, hs₁, hpre, -⟩ := equal_of_eagerEqual R hA hR .init rfl rfl he
  obtain ⟨rfl, rfl⟩ := equal_det R cfg hs₁ h
  exact (eagerEqual_markedOnce hR he).sublist hpre.sublist

theorem equal_reduces_marked_once_chain : Ranked chainRegistry id ∧
    (⟨false, true, true⟩ : Config).assertMode = false ∧
    ∃ b s', equal chainRegistry ⟨false, true, true⟩ 10 .init (.obj 3) (.obj 3) false = .stop b s' ∧
      MarkedOnce chainRegistry s'.invoked :=
  ⟨chainRegistry_ranked, rfl, _, _, rfl,
    @equal_reduces_marked_once Nat _ chainRegistry id chainRegistry_ranked ⟨false, true, true⟩ rfl
      3 3 false 10 _ _ rfl⟩

end Tvm.SEqual
