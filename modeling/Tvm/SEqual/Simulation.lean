import Tvm.SEqual.Steps

namespace Tvm.SEqual

variable {O : Type} [DecidableEq O]

open EagerState

section Follows

variable (R : Registry O) (cfg : Config)

def Follows (s : Handler O) (rest : List (Task O)) : Bool → EagerState O → Prop
  | true, st' => ∃ s', Runs R cfg s s' ∧ s'.Ready rest st'
  | false, st' => ∃ s', Returns R cfg s false s' ∧ s'.invoked <+: st'.invoked

def TaskFollows (n : Nat) : Prop :=
  ∀ st st' l r mfv p rest s b, eagerRequest R n st (some l) (some r) mfv = some (b, st') →
    st.Inv → R.typeIndex l = R.typeIndex r → (cfg.tracing = true → p.isSome) →
    s.Ready (.reduce l r mfv p false false :: rest) st → Follows R cfg s rest b st'

variable {R cfg}

theorem Follows.of_runs {s s₁ : Handler O} {rest : List (Task O)} {b : Bool} {st' : EagerState O}
    (h₁ : Runs R cfg s s₁) (h : Follows R cfg s₁ rest b st') : Follows R cfg s rest b st' := by
  cases b
  · obtain ⟨s', hs', hp⟩ := h
    exact ⟨s', hs'.of_runs h₁, hp⟩
  · obtain ⟨s', hs', hr⟩ := h
    exact ⟨s', h₁.trans hs', hr⟩

omit [DecidableEq O] in
theorem deferFail_cases (O : Type) (cfg : Config) (paths : Option ObjectPathPair) :
    (deferFail cfg paths : Bool × List (Task O)) = (false, []) ∨
      ∃ p, (deferFail cfg paths : Bool × List (Task O)) = (true, [.forceFail p]) := by
  unfold deferFail
  split
  · split
    · exact .inr ⟨_, rfl⟩
    · exact .inl rfl
  · exact .inl rfl

theorem sequalReduceRun_cases (R : Registry O) (cfg : Config) {M st : EagerState O} (hM : M.Inv) (hst : st.Inv) (hg : M.Grows st)
    (n : Nat) (lhs rhs : Option O) (mfv : Bool) (paths : Option ObjectPathPair) :
    (sequalReduceRun R cfg M.equalMapLhs M.equalMapRhs lhs rhs mfv paths = (true, []) ∧
      eagerRequest R n st lhs rhs mfv = some (true, st)) ∨
    (sequalReduceRun R cfg M.equalMapLhs M.equalMapRhs lhs rhs mfv paths = deferFail cfg paths ∧
      eagerRequest R n st lhs rhs mfv = some (false, st)) ∨
    (∃ l r, lhs = some l ∧ rhs = some r ∧ R.typeIndex l = R.typeIndex r ∧
      sequalReduceRun R cfg M.equalMapLhs M.equalMapRhs lhs rhs mfv paths =
        (true, [.reduce l r mfv paths false false])) := by
  rcases lhs with _ | l <;> rcases rhs with _ | r
  · exact .inl ⟨rfl, eagerRequest_none_none⟩
  · exact .inr (.inl ⟨rfl, eagerRequest_none_some r⟩)
  · exact .inr (.inl ⟨rfl, eagerRequest_some_none l⟩)
  by_cases ht : R.typeIndex l = R.typeIndex r
  · rcases hm : mapResult M.equalMapLhs M.equalMapRhs l r with _ | _ | _
    · exact .inr (.inr ⟨l, r, rfl, rfl, ht, by simp [sequalReduceRun, ht, hm]⟩)
    · exact .inr (.inl ⟨by simp [sequalReduceRun, ht, hm],
        eagerRequest_of_mapResult ht (mapResult_of_grows hM hst hg hm)⟩)
    · exact .inl ⟨by simp [sequalReduceRun, ht, hm],
        eagerRequest_of_mapResult ht (mapResult_of_grows hM hst hg hm)⟩
  · exact .inr (.inl ⟨by simp [sequalReduceRun, ht], eagerRequest_of_typeIndex_ne ht⟩)

variable (hA : cfg.assertMode = false)
include hA

theorem follows_decided {s : Handler O} {st : EagerState O} {l r : O} {mfv b : Bool}
    {p : Option ObjectPathPair} {rest : List (Task O)}
    (hs : s.Ready (.reduce l r mfv p false false :: rest) st) (ht : R.typeIndex l = R.typeIndex r)
    (hm : mapResult st.equalMapLhs st.equalMapRhs l r = some b) : Follows R cfg s rest b st := by
  obtain ⟨htrue, hfalse⟩ := step_decided hA hs ht hm
  cases b
  · obtain ⟨s', h, hinv⟩ := hfalse rfl
    exact ⟨s', ⟨s, .refl, h⟩, hinv ▸ List.prefix_refl _⟩
  · obtain ⟨s₁, h₁, hs₁⟩ := htrue rfl
    obtain ⟨s₂, h₂, hs₂⟩ := step_complete hs₁ (.inr (mapResult_eq_some_true.1 hm))
    exact ⟨s₂, .tail (.single h₁) h₂, hs₂⟩

theorem checks_follow {rank : O → Nat} (hR : Ranked R rank) {n : Nat} (hT : TaskFollows R cfg n)
    {mfv : Bool} {current : Option ObjectPathPair} (hcur : cfg.tracing = true → current.isSome)
    {M : EagerState O} (hM : M.Inv) :
    ∀ (cs : List (Check O)) (st st' : EagerState O) g b m,
      eagerChecks (eagerRequest R n) mfv cs st g = some (b, st', m) → st.Inv → M.Grows st →
      ((queuePass R cfg M.equalMapLhs M.equalMapRhs mfv current cs).1 = false → b = false) ∧
      ((queuePass R cfg M.equalMapLhs M.equalMapRhs mfv current cs).1 = true → ∀ s rest,
        s.Ready ((queuePass R cfg M.equalMapLhs M.equalMapRhs mfv current cs).2.1 ++ rest) st →
        Follows R cfg s rest b st' ∧
          (b = true → m = (g || (queuePass R cfg M.equalMapLhs M.equalMapRhs mfv current cs).2.2)))
  | [], st, st', g, b, m, h, _, _ => by
    simp only [eagerChecks, Option.some.injEq, Prod.mk.injEq] at h
    obtain ⟨rfl, rfl, rfl⟩ := h
    exact ⟨fun h => (nomatch h), fun _ s rest hs => ⟨⟨s, .refl, hs⟩, fun _ => by simp [queuePass]⟩⟩
  | .prim eq _ :: cs, st, st', g, b, m, h, hinv, hg => by
    cases eq
    · simp only [eagerChecks, Bool.false_eq_true, if_false, Option.some.injEq, Prod.mk.injEq] at h
      exact ⟨fun _ => h.1.symm, fun hq => (nomatch hq)⟩
    · simpa only [queuePass, if_true] using checks_follow hR hT hcur hM cs st st' g b m h hinv hg
  | .mark :: cs, st, st', g, b, m, h, hinv, hg => by
    obtain ⟨h₀, h₁⟩ := checks_follow hR hT hcur hM cs st st' true b m h hinv hg
    refine ⟨h₀, fun hq s rest hs => ?_⟩
    obtain ⟨hf, hm⟩ := h₁ hq s rest hs
    exact ⟨hf, fun hb => by simpa [queuePass] using hm hb⟩
  | .object lhs rhs defEqual site :: cs, st, st', g, b, m, h, hinv, hg => by
    simp only [eagerChecks] at h
    rcases sequalReduceRun_cases R cfg hM hinv hg n lhs rhs (defEqual || mfv) (current.map site.resolve)
      with ⟨hrun, hreq⟩ | ⟨hrun, hreq⟩ | ⟨l, r, rfl, rfl, ht, hrun⟩
    · -- accepted at once by both: the rest of the checks decide
      simp only [hreq] at h
      simpa only [queuePass, hrun, if_true, List.nil_append, Prod.mk.eta] using
        checks_follow hR hT hcur hM cs st st' g b m h hinv hg
    · -- rejected at once by the descent; the pass fails or defers a force-fail task
      simp only [hreq, Option.some.injEq, Prod.mk.injEq] at h
      obtain ⟨rfl, rfl, rfl⟩ := h
      refine ⟨fun _ => rfl, fun hq s rest hs => ⟨?_, fun hb => nomatch hb⟩⟩
      simp only [queuePass, hrun] at hq hs
      rcases deferFail_cases O cfg (current.map site.resolve) with hd | ⟨p, hd⟩ <;>
        simp only [hd, if_true, Bool.false_eq_true, if_false] at hq hs
      obtain ⟨s', hstep, hinv'⟩ := step_forceFail hA hs.taskStack
      exact ⟨s', ⟨s, .refl, hstep⟩, by rw [hinv', hs.invoked]⟩
    · -- queued: the child's task runs first, then the tasks of the remaining checks
      rcases hreq : eagerRequest R n st (some l) (some r) (defEqual || mfv) with _ | ⟨b₁, st₁⟩
      · simp [hreq] at h
      have hs₁ := requestSound hR n st st₁ l r _ b₁ hreq hinv
      simp only [queuePass, hrun, if_true, List.singleton_append, List.cons_append,
        List.nil_append]
      cases b₁
      · simp only [hreq, Option.some.injEq, Prod.mk.injEq] at h
        obtain ⟨rfl, rfl, rfl⟩ := h
        refine ⟨fun _ => rfl, fun _ s rest hs => ⟨?_, fun hb => nomatch hb⟩⟩
        have hf := hT st st₁ l r _ _ _ s false hreq hinv ht (fun htr => by simpa using hcur htr) hs
        exact hf
      · simp only [hreq] at h
        obtain ⟨h₀, h₁⟩ := checks_follow hR hT hcur hM cs st₁ st' g b m h hs₁.inv
          (hg.trans hs₁.grows)
        refine ⟨h₀, fun hq s rest hs => ?_⟩
        obtain ⟨s₁, hrun₁, hs₁'⟩ := hT st st₁ l r _ _ _ s true hreq hinv ht
          (fun htr => by simpa using hcur htr) hs
        obtain ⟨hf, hm⟩ := h₁ hq s₁ rest hs₁'
        exact ⟨hf.of_runs hrun₁, hm⟩

/-- `RunTasks` follows the recursive descent on every task it starts, at every depth. -/
theorem taskFollows {rank : O → Nat} (hR : Ranked R rank) : ∀ n, TaskFollows R cfg n := by
  intro n
  induction n with
  | zero =>
    intro st st' l r mfv p rest s b h hinv ht hp hs
    rcases eagerRequest_cases h with ⟨ht', -, -⟩ | ⟨-, hm, rfl⟩ | ⟨-, -, k, -, -, hk, -⟩
    · exact absurd ht ht'
    · exact follows_decided hA hs ht hm
    · omega
  | succ n ih =>
    intro st st' l r mfv p rest s b h hinv ht hp hs
    rcases eagerRequest_cases h with ⟨ht', -, -⟩ | ⟨-, hm, rfl⟩ | ⟨-, hm, k, st₁, m, hk, hc, rfl⟩
    · exact absurd ht ht'
    · exact follows_decided hA hs ht hm
    obtain rfl : n = k := by omega
    have hinv₀ : (st.invoke l r mfv).Inv := hinv
    have hcur : cfg.tracing = true → (if cfg.tracing then p else none).isSome := fun htr => by
      simpa [htr] using hp htr
    have hsound : Sound rank (st.invoke l r mfv) st₁ (rank l) (rank r) :=
      eagerChecks_sound (requestSound hR n) _ _ _ _ _ _ (hR mfv l r ht) hc hinv₀
    obtain ⟨hq₀, hq₁⟩ := checks_follow hA hR ih hcur hinv (R.reduce mfv l r) (st.invoke l r mfv)
      st₁ false b m hc hinv₀ (grows_invoke st l r mfv)
    obtain ⟨hopen, hfail⟩ := step_open hA hs ht hm hp
    cases hq : (queuePass R cfg st.equalMapLhs st.equalMapRhs mfv (if cfg.tracing then p else none)
      (R.reduce mfv l r)).1
    · -- a check fails at once: the dispatch returns false
      obtain rfl := hq₀ hq
      obtain ⟨s', h', hinv'⟩ := hfail hq
      exact ⟨s', ⟨s, .refl, h'⟩, by simpa [hinv'] using hsound.grows.invoked⟩
    · obtain ⟨s₁, h₁, hs₁⟩ := hopen hq
      obtain ⟨hf, hm'⟩ := hq₁ hq s₁ _ hs₁
      cases b
      · exact hf.of_runs (.single h₁)
      · -- every child passed: the task completes, and is added to the maps when it is marked
        obtain ⟨s₂, h₂, hs₂⟩ := hf
        obtain ⟨hl, -⟩ := hsound.unmapped hinv₀ (mapResult_eq_none.1 hm).1
          (mapResult_eq_none.1 hm).2
        obtain ⟨s₃, h₃, hs₃⟩ := step_complete hs₂ (.inl hl)
        refine ⟨s₃, (Relation.ReflTransGen.single h₁).trans (h₂.tail h₃), ?_⟩
        simpa [hm' rfl] using hs₃

end Follows

section Equal

variable (R : Registry O) {cfg : Config} (hA : cfg.assertMode = false)
include hA

omit [DecidableEq O] in
theorem equal_fail_stop (s : Handler O) :
    let s₀ : Handler O := { s with pendingTasks := [], taskStack := [],
                                   equalMapLhs := fun _ => none, equalMapRhs := fun _ => none }
    ∃ s', (match checkResult cfg false (if cfg.tracing then some ⟨[], []⟩ else none) s₀ with
      | .ok (b, s) => Step.stop b s
      | .error e => .fatal e) = .stop false s' ∧ s'.invoked = s.invoked := by
  intro s₀
  obtain ⟨fm, h⟩ := checkResult_of_not_assert hA false
    (if cfg.tracing then some ⟨[], []⟩ else none) s₀
  exact ⟨{ s₀ with firstMismatch := fm }, by rw [h], rfl⟩

theorem equal_obj (s : Handler O) (hs : s.allowPushToStack = true) {l r : O}
    (ht : R.typeIndex l = R.typeIndex r) (mfv : Bool) :
    ∃ s₀, s₀.Ready [.reduce l r mfv (if cfg.tracing then some ⟨[], []⟩ else none) false false]
        ⟨fun _ => none, fun _ => none, s.invoked⟩ ∧
      ∀ fuel, equal R cfg fuel s (.obj l) (.obj r) mfv = runTasks R cfg fuel s₀ := by
  rcases s with ⟨pt, ts, ap, fm₀, ml, mr, inv⟩
  obtain rfl : ap = true := hs
  obtain ⟨fm, h⟩ := sequalReduce_of_not_assert hA R ⟨[], [], true, fm₀, fun _ => none,
    fun _ => none, inv⟩ (some l) (some r) mfv (if cfg.tracing then some ⟨[], []⟩ else none)
  simp only [sequalReduceRun, ht, mapResult, Option.isSome_none, Bool.false_eq_true, if_false,
    if_true, List.nil_append] at h
  refine ⟨⟨[], [.reduce l r mfv (if cfg.tracing then some ⟨[], []⟩ else none) false false], true,
    fm, fun _ => none, fun _ => none, inv⟩, ⟨rfl, rfl, rfl, rfl, rfl, rfl⟩, fun fuel => ?_⟩
  simp only [equal, ht, ne_eq, not_true_eq_false, if_false, h, if_true]

theorem equal_of_eagerEqual_after {rank : O → Nat} (hR : Ranked R rank) (s : Handler O)
    (hs : s.allowPushToStack = true) {lhs rhs : Any O} {mfv b : Bool} {n : Nat}
    {st' : EagerState O} (h : eagerEqual R n lhs rhs mfv = some (b, st')) :
    ∃ fuel s', equal R cfg fuel s lhs rhs mfv = .stop b s' ∧
      s'.invoked <+: s.invoked ++ st'.invoked ∧ (b = true → s'.Ready [] (st'.after s.invoked)) := by
  obtain ⟨sf, hfail, hsf⟩ := equal_fail_stop hA s
  have hempty : ∀ s' : Handler O, s'.invoked = s.invoked → s'.invoked <+: s.invoked ++ st'.invoked :=
    fun s' h => h ▸ List.prefix_append _ _
  rcases lhs with ⟨t, bits⟩ | l <;> rcases rhs with ⟨t', bits'⟩ | r
  · -- two POD values: equal exactly when their type indices and bits are
    simp only [eagerEqual, Option.some.injEq, Prod.mk.injEq] at h
    obtain ⟨rfl, rfl⟩ := h
    by_cases heq : t = t' ∧ bits = bits'
    · refine ⟨0, { s with pendingTasks := [], taskStack := [], equalMapLhs := fun _ => none,
                          equalMapRhs := fun _ => none }, ?_, hempty _ rfl,
        fun _ => ⟨rfl, rfl, hs, rfl, rfl, (List.append_nil _).symm⟩⟩
      simp only [equal, heq, and_self, if_true, decide_True]
    · refine ⟨0, sf, ?_, hempty _ hsf, fun hb => by simp [heq] at hb⟩
      simpa only [equal, heq, if_false, decide_False] using hfail
  · simp only [eagerEqual, Option.some.injEq, Prod.mk.injEq] at h
    obtain ⟨rfl, rfl⟩ := h
    exact ⟨0, sf, hfail, hempty _ hsf, fun hb => nomatch hb⟩
  · simp only [eagerEqual, Option.some.injEq, Prod.mk.injEq] at h
    obtain ⟨rfl, rfl⟩ := h
    exact ⟨0, sf, hfail, hempty _ hsf, fun hb => nomatch hb⟩
  by_cases ht : R.typeIndex l = R.typeIndex r
  · -- two objects of one type: `RunTasks` on the root task follows the descent, after the
    -- handler's earlier invocations
    obtain ⟨s₀, hs₀, hrun⟩ := equal_obj R hA s hs ht mfv
    have h' : eagerRequest R n (EagerState.empty.after s.invoked) (some l) (some r) mfv =
        some (b, st'.after s.invoked) := by
      rw [eagerRequest_after, show eagerRequest R n .empty (some l) (some r) mfv = _ from h]
      rfl
    have hf := taskFollows hA hR n _ _ l r mfv _ [] s₀ b h' inv_empty ht
      (fun htr => by simp [htr]) { hs₀ with invoked := hs₀.invoked.trans (List.append_nil _).symm }
    cases b
    · obtain ⟨s₁, hret, hpre⟩ := hf
      obtain ⟨fuel, hfuel⟩ := runTasks_of_returns hret
      exact ⟨fuel, s₁, (hrun fuel).trans hfuel, hpre, fun hb => nomatch hb⟩
    · obtain ⟨s₁, hruns, hs₁⟩ := hf
      obtain ⟨fuel, hfuel⟩ := runTasks_of_returns
        (show Returns R cfg s₀ true s₁ from ⟨s₁, hruns, by simp only [step, hs₁.taskStack]⟩)
      exact ⟨fuel, s₁, (hrun fuel).trans hfuel, hs₁.invoked ▸ List.prefix_refl _, fun _ => hs₁⟩
  · simp only [eagerEqual, eagerRequest_of_typeIndex_ne ht, Option.some.injEq,
      Prod.mk.injEq] at h
    obtain ⟨rfl, rfl⟩ := h
    exact ⟨0, sf, by simpa only [equal, ht, ne_eq, not_false_eq_true, if_true] using hfail,
      hempty _ hsf, fun hb => nomatch hb⟩

/-- `Equal` refines the recursive descent from a handler that allows pushing and invoked nothing. -/
theorem equal_of_eagerEqual {rank : O → Nat} (hR : Ranked R rank) (s : Handler O)
    (hs : s.allowPushToStack = true) (hinv : s.invoked = []) {lhs rhs : Any O} {mfv b : Bool}
    {n : Nat} {st' : EagerState O} (h : eagerEqual R n lhs rhs mfv = some (b, st')) :
    ∃ fuel s', equal R cfg fuel s lhs rhs mfv = .stop b s' ∧ s'.invoked <+: st'.invoked ∧
      (b = true → s'.invoked = st'.invoked ∧ s'.equalMapLhs = st'.equalMapLhs ∧
        s'.equalMapRhs = st'.equalMapRhs) := by
  obtain ⟨fuel, s', heq, hpre, hready⟩ := equal_of_eagerEqual_after R hA hR s hs h
  rw [hinv] at hpre hready
  exact ⟨fuel, s', heq, hpre, fun hb =>
    ⟨(hready hb).invoked, (hready hb).equalMapLhs, (hready hb).equalMapRhs⟩⟩

end Equal

/-- Chains: `n + 1` marks itself and compares its child `n`; `0` is a leaf. -/
def chainRegistry : Registry Nat where
  typeIndex n := if n = 0 then 0 else 1
  reduce _ l r :=
    if l = 0 then [] else [.mark, .object (some (l - 1)) (some (r - 1)) false (.attrs none none)]

theorem chainRegistry_ranked : Ranked chainRegistry id := by
  intro mfv l r ht l' r' d site h
  simp only [chainRegistry] at ht h
  split_ifs at h ht with hl hr <;> simp at h
  obtain ⟨rfl, rfl, -⟩ := h
  exact ⟨by simp only [id]; omega, by simp only [id]; omega⟩

/-- `Equal` from a fresh handler refines the recursive descent on acyclic registries. -/
theorem equal_refines_eager (R : Registry O) (rank : O → Nat) (hR : Ranked R rank) (cfg : Config)
    (hA : cfg.assertMode = false) (l r : O) (mfv : Bool) :
    ∃ b st', eagerEqual R (rank l + 1) (.obj l) (.obj r) mfv = some (b, st') ∧
      ∃ fuel s', equal R cfg fuel .init (.obj l) (.obj r) mfv = .stop b s' ∧
        s'.invoked <+: st'.invoked ∧
        (b = true → s'.invoked = st'.invoked ∧ s'.equalMapLhs = st'.equalMapLhs ∧
          s'.equalMapRhs = st'.equalMapRhs) := by
  obtain ⟨⟨b, st'⟩, h⟩ := Option.isSome_iff_exists.1 (eagerEqual_obj_isSome hR l r mfv)
  exact ⟨b, st', h, equal_of_eagerEqual R hA hR .init rfl rfl h⟩

theorem equal_refines_eager_chain : Ranked chainRegistry id ∧ (⟨false, false, false⟩ : Config).assertMode = false ∧
    ∃ b st', eagerEqual chainRegistry (id 2 + 1) (.obj 2) (.obj 2) false = some (b, st') ∧
      ∃ fuel s', equal chainRegistry ⟨false, false, false⟩ fuel .init (.obj 2) (.obj 2) false =
          .stop b s' ∧ s'.invoked <+: st'.invoked ∧
        (b = true → s'.invoked = st'.invoked ∧ s'.equalMapLhs = st'.equalMapLhs ∧
          s'.equalMapRhs = st'.equalMapRhs) :=
  ⟨chainRegistry_ranked, rfl,
    equal_refines_eager chainRegistry id chainRegistry_ranked ⟨false, false, false⟩ rfl 2 2 false⟩

/-- The verdict of `Equal` depends on neither path tracing nor fail deferral. -/
theorem equal_verdict_config_independent (R : Registry O) (rank : O → Nat) (hR : Ranked R rank)
    (l r : O) (mfv : Bool) :
    ∃ b, ∀ cfg : Config, cfg.assertMode = false →
      ∃ fuel s', equal R cfg fuel .init (.obj l) (.obj r) mfv = .stop b s' := by
  obtain ⟨⟨b, st'⟩, h⟩ := Option.isSome_iff_exists.1 (eagerEqual_obj_isSome hR l r mfv)
  refine ⟨b, fun cfg hA => ?_⟩
  obtain ⟨fuel, s', hs', -⟩ := equal_of_eagerEqual R hA hR .init rfl rfl h
  exact ⟨fuel, s', hs'⟩

theorem equal_verdict_config_independent_chain : Ranked chainRegistry id ∧
    ∃ b, ∀ cfg : Config, cfg.assertMode = false →
      ∃ fuel s', equal chainRegistry cfg fuel .init (.obj 3) (.obj 2) true = .stop b s' :=
  ⟨chainRegistry_ranked,
    equal_verdict_config_independent chainRegistry id chainRegistry_ranked 3 2 true⟩

/-- One type that marks its nodes and compares every node with itself. -/
def selfLoopRegistry : Registry Nat where
  typeIndex _ := 0
  reduce _ l r := [.mark, .object (some l) (some r) false (.attrs none none)]

/-- On a self-loop `RunTasks` never returns: each dispatch of the pair queues it again. -/
theorem runTasks_selfLoop {cfg : Config} (hA : cfg.assertMode = false) (x : Nat) (mfv : Bool) :
    ∀ fuel (s : Handler Nat) p rest (I : List (Nat × Nat × Bool)), (cfg.tracing = true → p.isSome) →
      s.Ready (.reduce x x mfv p false false :: rest) ⟨fun _ => none, fun _ => none, I⟩ →
      ∃ s', runTasks selfLoopRegistry cfg fuel s = .next s'
  | 0, s, _, _, _, _, _ => ⟨s, rfl⟩
  | fuel + 1, s, p, rest, I, hp, hs => by
    obtain ⟨hopen, -⟩ := step_open hA hs
      (show selfLoopRegistry.typeIndex x = selfLoopRegistry.typeIndex x from rfl) rfl hp
    obtain ⟨s₁, h₁, hs₁⟩ := hopen (by simp [queuePass, sequalReduceRun, mapResult, selfLoopRegistry])
    simp only [queuePass, sequalReduceRun, mapResult, selfLoopRegistry, if_true, Option.isSome_none,
      Bool.false_eq_true, if_false, Bool.or_false, List.append_nil, List.singleton_append] at hs₁
    obtain ⟨s₂, h₂⟩ := runTasks_selfLoop hA x mfv fuel s₁ _ _ _ (fun htr => by simpa [htr] using hp htr) hs₁
    exact ⟨s₂, by rw [runTasks, h₁]; exact h₂⟩

/-- `StructuralEqual::operator()` on a node compared with itself never returns. -/
theorem equal_selfLoop_runs_forever : ¬ ∃ fuel b s',
    equal selfLoopRegistry ⟨false, false, false⟩ fuel .init (.obj 0) (.obj 0) false = .stop b s' := by
  rintro ⟨fuel, b, s', h⟩
  have hA : (⟨false, false, false⟩ : Config).assertMode = false := rfl
  obtain ⟨s₀, hs₀, hrun⟩ := equal_obj selfLoopRegistry hA .init rfl
    (show selfLoopRegistry.typeIndex 0 = selfLoopRegistry.typeIndex 0 from rfl) false
  obtain ⟨s₁, h₁⟩ := runTasks_selfLoop hA 0 false fuel s₀ _ _ _ (fun h => Bool.noConfusion h) hs₀
  rw [hrun, h₁] at h
  cases h

end Tvm.SEqual

