import Tvm.SEqual.Laws
import Tvm.SEqual.Paths

namespace Tvm.SEqual

variable {O : Type} [DecidableEq O]

open EagerState

section Descent

variable (R : Registry O)

/-- Modelled from the spec: the paths of the first failing check of a reducer's checks. -/
def eagerMismatchChecks
    (request : EagerState O → Option O → Option O → Bool → Option (Bool × EagerState O))
    (mismatch : EagerState O → ObjectPathPair → Option O → Option O → Bool → ObjectPathPair)
    (mfv : Bool) (cur : ObjectPathPair) : List (Check O) → EagerState O → Option ObjectPathPair
  | [], _ => none
  | .prim eq site :: cs, st =>
    if eq then eagerMismatchChecks request mismatch mfv cur cs st else site.map (·.resolve cur)
  | .object lhs rhs defEqual site :: cs, st =>
    match request st lhs rhs (defEqual || mfv) with
    | some (true, st) => eagerMismatchChecks request mismatch mfv cur cs st
    | _ => some (mismatch st (site.resolve cur) lhs rhs (defEqual || mfv))
  | .mark :: cs, st => eagerMismatchChecks request mismatch mfv cur cs st

/-- Modelled from the spec: the paths of the first failure of a comparison by recursive descent. -/
def eagerMismatch : Nat → EagerState O → ObjectPathPair → Option O → Option O → Bool → ObjectPathPair
  | fuel + 1, st, cur, some l, some r, mfv =>
    if R.typeIndex l = R.typeIndex r ∧ mapResult st.equalMapLhs st.equalMapRhs l r = none then
      (eagerMismatchChecks (eagerRequest R fuel) (eagerMismatch fuel) mfv cur (R.reduce mfv l r)
        (st.invoke l r mfv)).getD cur
    else cur
  | _, _, cur, _, _, _ => cur

def Check.isPrim {O : Type} : Check O → Bool
  | .prim _ _ => true
  | _ => false

/-- A reducer whose primitive checks all come before its first child comparison. -/
def primsFirst {O : Type} : List (Check O) → Bool
  | [] => true
  | .prim _ _ :: cs => primsFirst cs
  | .object _ _ _ _ :: cs => cs.all fun c => !c.isPrim
  | .mark :: cs => primsFirst cs

end Descent

section DescentLemmas

variable {R : Registry O} {n : Nat} {st : EagerState O} {cur : ObjectPathPair} {mfv : Bool}

@[simp] theorem eagerMismatch_none_left (rhs : Option O) :
    eagerMismatch R n st cur none rhs mfv = cur := by
  cases n <;> rfl

@[simp] theorem eagerMismatch_none_right (lhs : Option O) :
    eagerMismatch R n st cur lhs none mfv = cur := by
  cases n <;> cases lhs <;> rfl

theorem eagerMismatch_of_not_open {l r : O}
    (h : ¬(R.typeIndex l = R.typeIndex r ∧ mapResult st.equalMapLhs st.equalMapRhs l r = none)) :
    eagerMismatch R n st cur (some l) (some r) mfv = cur := by
  cases n
  · rfl
  · exact if_neg h

theorem eagerMismatch_succ_of_open {l r : O} (ht : R.typeIndex l = R.typeIndex r)
    (hm : mapResult st.equalMapLhs st.equalMapRhs l r = none) :
    eagerMismatch R (n + 1) st cur (some l) (some r) mfv =
      (eagerMismatchChecks (eagerRequest R n) (eagerMismatch R n) mfv cur (R.reduce mfv l r)
        (st.invoke l r mfv)).getD cur :=
  if_pos ⟨ht, hm⟩

omit [DecidableEq O] in
theorem primsFirst_of_all_not_isPrim {cs : List (Check O)}
    (h : (cs.all fun c => !c.isPrim) = true) : primsFirst cs = true := by
  induction cs with
  | nil => rfl
  | cons c cs ih =>
    simp only [List.all_cons, Bool.and_eq_true] at h
    cases c with
    | prim => exact absurd h.1 Bool.false_ne_true
    | object => exact h.2
    | mark => exact ih h.2

end DescentLemmas

section Engine

def primMismatch {O : Type} (cur : ObjectPathPair) : List (Check O) → Option ObjectPathPair
  | [] => none
  | .prim eq site :: cs => if eq then primMismatch cur cs else site.map (·.resolve cur)
  | _ :: cs => primMismatch cur cs

variable {R : Registry O} {cfg : Config}

theorem step_stop_reduce {s s' : Handler O} {l r : O} {mfv g b : Bool} {p : Option ObjectPathPair}
    {rest : List (Task O)} (hst : s.taskStack = .reduce l r mfv p false g :: rest)
    (h : step R cfg s = .stop b s') :
    dispatchSEqualReduce R cfg
      { s with taskStack := .reduce l r mfv p true g :: rest, allowPushToStack := false }
      l r mfv p = .ok (false, s') := by
  rcases step_stop_cases h with ⟨h', -⟩ | ⟨_, _, h', -⟩ | ⟨_, _, _, _, _, _, h', -, hd⟩ <;>
    rw [hst] at h'
  · cases h'
  · cases h'
  · cases h'
    exact hd

variable (hA : cfg.assertMode = false) (htr : cfg.tracing = true)
include hA htr

omit [DecidableEq O] in
theorem checkResult_traced (b : Bool) (p : ObjectPathPair) (s : Handler O) :
    checkResult cfg b (some p) s =
      .ok (b, if b then s else { s with firstMismatch := some (s.firstMismatch.getD p) }) := by
  rcases s with ⟨_, _, _, _ | fm, _, _, _⟩ <;> cases b <;> simp [checkResult, hA, htr]

theorem step_forceFail_traced {s : Handler O} {p : ObjectPathPair} {rest : List (Task O)}
    (hst : s.taskStack = .forceFail p :: rest) (hs : s.firstMismatch = none) :
    step R cfg s = .stop false { s with firstMismatch := some p } := by
  simp [step, hst, checkResult_traced hA htr, hs]

variable (hdf : cfg.deferFails = true)
include hdf

omit hA in
theorem sequalReduceRun_fst_of_deferred (mapLhs mapRhs : O → Option O) (lhs rhs : Option O)
    (mfv : Bool) (p : ObjectPathPair) :
    (sequalReduceRun R cfg mapLhs mapRhs lhs rhs mfv (some p)).1 = true := by
  have hd : (deferFail cfg (some p) : Bool × List (Task O)).1 = true := by
    simp [deferFail, htr, hdf]
  unfold sequalReduceRun
  split
  · rfl
  · split
    · split
      · rfl
      · exact hd
      · rfl
    · exact hd
  · exact hd

omit hA in
theorem queuePass_fst_of_all_not_isPrim (mapLhs mapRhs : O → Option O) (mfv : Bool)
    (cur : ObjectPathPair) (cs : List (Check O)) (h : (cs.all fun c => !c.isPrim) = true) :
    (queuePass R cfg mapLhs mapRhs mfv (some cur) cs).1 = true := by
  induction cs with
  | nil => rfl
  | cons c cs ih =>
    simp only [List.all_cons, Bool.and_eq_true] at h
    cases c with
    | prim => exact absurd h.1 Bool.false_ne_true
    | object =>
      simp only [queuePass, Option.map_some', sequalReduceRun_fst_of_deferred htr hdf, if_true]
      exact ih h.2
    | mark => exact ih h.2

theorem runCheck_deferred (mfv : Bool) (cur : ObjectPathPair) (cs : List (Check O))
    {c : Check O} {s s' : Handler O} {b : Bool}
    (h : runCheck R cfg mfv (some cur) s c = .ok (b, s')) (hs : s.firstMismatch = none) :
    s'.firstMismatch = (if b then none else primMismatch cur (c :: cs)) ∧
      (b = true → primMismatch cur (c :: cs) = primMismatch cur cs) := by
  cases c with
  | prim eq site =>
    cases eq
    · cases site <;> obtain ⟨rfl, rfl⟩ := Except.ok.inj h |> Prod.mk.inj <;>
        simp [primMismatch, recordMismatch_of_none hs, hs]
    · obtain ⟨rfl, rfl⟩ := Except.ok.inj h |> Prod.mk.inj
      exact ⟨hs, fun _ => rfl⟩
  | object lhs rhs d site =>
    simp only [runCheck, sequalReduce, checkResult_traced hA htr,
      sequalReduceRun_fst_of_deferred htr hdf, if_true, except_ok_bind, except_pure] at h
    obtain ⟨rfl, rfl⟩ := Except.ok.inj h |> Prod.mk.inj
    exact ⟨hs, fun _ => rfl⟩
  | mark =>
    obtain ⟨s₀, -, h'⟩ := except_bind_eq_ok h
    obtain ⟨rfl, rfl⟩ := Except.ok.inj h' |> Prod.mk.inj
    exact ⟨((runCheck_frame R cfg h).2 rfl).trans hs, fun _ => rfl⟩

theorem runChecks_firstMismatch (mfv : Bool) (cur : ObjectPathPair) :
    ∀ (cs : List (Check O)) {s s' : Handler O} {b : Bool},
      runChecks R cfg mfv (some cur) cs s = .ok (b, s') → s.firstMismatch = none →
      s'.firstMismatch = if b then none else primMismatch cur cs
  | [], s, s', b, h, hs => by
    obtain ⟨rfl, rfl⟩ := Except.ok.inj h |> Prod.mk.inj
    exact hs
  | c :: cs, s, s', b, h, hs => by
    rw [runChecks] at h
    obtain ⟨⟨b₁, s₁⟩, h₁, h⟩ := except_bind_eq_ok h
    obtain ⟨hs₁, hpass⟩ := runCheck_deferred hA htr hdf mfv cur cs h₁ hs
    cases b₁
    · obtain ⟨rfl, rfl⟩ := Except.ok.inj h |> Prod.mk.inj
      exact hs₁
    · rw [hpass rfl]
      exact runChecks_firstMismatch mfv cur cs h hs₁

theorem dispatch_firstMismatch {s s' : Handler O} {l r : O} {mfv b : Bool} {cur : ObjectPathPair}
    (h : dispatchSEqualReduce R cfg s l r mfv (some cur) = .ok (b, s'))
    (hs : s.firstMismatch = none) :
    s'.firstMismatch = if b then none else
      some (if mapResult s.equalMapLhs s.equalMapRhs l r = none then
        (primMismatch cur (R.reduce mfv l r)).getD cur else cur) := by
  simp only [dispatchSEqualReduce] at h
  split at h
  · cases h
  simp only [pure_bind] at h
  split at h
  · rename_i b₀ hm
    rw [checkResult_traced hA htr] at h
    obtain ⟨rfl, rfl⟩ := Except.ok.inj h |> Prod.mk.inj
    cases b₀ <;> simp [hm, hs]
  · rename_i hm
    obtain ⟨⟨b₀, s₀⟩, h₀, h⟩ := except_bind_eq_ok h
    have hs₀ := runChecks_firstMismatch hA htr hdf mfv cur _ h₀ hs
    rw [checkResult_traced hA htr] at h
    obtain ⟨rfl, rfl⟩ := Except.ok.inj h |> Prod.mk.inj
    cases b₀ <;> simp [hm, hs₀]

theorem step_stop_firstMismatch {s s' : Handler O} {l r : O} {mfv b : Bool} {cur : ObjectPathPair}
    {rest : List (Task O)} (hst : s.taskStack = .reduce l r mfv (some cur) false false :: rest)
    (h : step R cfg s = .stop b s') (hs : s.firstMismatch = none) :
    s'.firstMismatch = some (if mapResult s.equalMapLhs s.equalMapRhs l r = none then
        (primMismatch cur (R.reduce mfv l r)).getD cur else cur) :=
  (dispatch_firstMismatch hA htr hdf (step_stop_reduce hst h) hs).trans (if_neg Bool.false_ne_true)

omit hA in
theorem sequalReduceRun_deferred_cases {M st : EagerState O} (hM : M.Inv) (hst : st.Inv)
    (hg : M.Grows st) (n : Nat) (lhs rhs : Option O) (mfv : Bool) (p : ObjectPathPair) :
    (sequalReduceRun R cfg M.equalMapLhs M.equalMapRhs lhs rhs mfv (some p) = (true, []) ∧
      eagerRequest R n st lhs rhs mfv = some (true, st)) ∨
    (sequalReduceRun R cfg M.equalMapLhs M.equalMapRhs lhs rhs mfv (some p) =
        (true, [.forceFail p]) ∧
      eagerRequest R n st lhs rhs mfv = some (false, st) ∧ eagerMismatch R n st p lhs rhs mfv = p) ∨
    (∃ l r, lhs = some l ∧ rhs = some r ∧ R.typeIndex l = R.typeIndex r ∧
      sequalReduceRun R cfg M.equalMapLhs M.equalMapRhs lhs rhs mfv (some p) =
        (true, [.reduce l r mfv (some p) false false])) := by
  have hd : (deferFail cfg (some p) : Bool × List (Task O)) = (true, [.forceFail p]) := by
    simp [deferFail, htr, hdf]
  rcases sequalReduceRun_cases R cfg hM hst hg n lhs rhs mfv (some p) with h | ⟨hrun, hreq⟩ | h
  · exact .inl h
  · refine .inr (.inl ⟨hrun.trans hd, hreq, ?_⟩)
    rcases lhs with _ | l <;> rcases rhs with _ | r
    · exact eagerMismatch_none_left _
    · exact eagerMismatch_none_left _
    · exact eagerMismatch_none_right _
    refine eagerMismatch_of_not_open fun ⟨ht, hm⟩ => ?_
    -- an open pair on the grown maps is open on the maps of the pass, which queue it
    have hm' : mapResult M.equalMapLhs M.equalMapRhs l r = none := by
      rcases h' : mapResult M.equalMapLhs M.equalMapRhs l r with _ | b
      · rfl
      · rw [mapResult_of_grows hM hst hg h'] at hm
        cases hm
    simp [sequalReduceRun, ht, hm', hd] at hrun
  · exact .inr (.inr h)

omit hA in
theorem eagerMismatchChecks_of_queuePass (mapLhs mapRhs : O → Option O) (mfv : Bool)
    (cur : ObjectPathPair)
    (request : EagerState O → Option O → Option O → Bool → Option (Bool × EagerState O))
    (mismatch : EagerState O → ObjectPathPair → Option O → Option O → Bool → ObjectPathPair)
    {cs : List (Check O)} (st : EagerState O) (hP : primsFirst cs = true)
    (hq : (queuePass R cfg mapLhs mapRhs mfv (some cur) cs).1 = false) :
    eagerMismatchChecks request mismatch mfv cur cs st = primMismatch cur cs := by
  induction cs with
  | nil => cases hq
  | cons c cs ih =>
    cases c with
    | prim eq site =>
      cases eq
      · rfl
      · exact ih hP hq
    | object lhs rhs d site =>
      have := @queuePass_fst_of_all_not_isPrim _ _ R cfg htr hdf mapLhs mapRhs mfv cur
        (.object lhs rhs d site :: cs)
        (by simpa only [List.all_cons, Check.isPrim, Bool.not_false, Bool.true_and] using hP)
      rw [hq] at this
      cases this
    | mark => exact ih hP hq

end Engine

section Simulation

variable (R : Registry O) (cfg : Config)

def TaskMismatch (n : Nat) : Prop :=
  ∀ st st' l r mfv cur rest s, eagerRequest R n st (some l) (some r) mfv = some (false, st') →
    st.Inv → R.typeIndex l = R.typeIndex r →
    s.Ready (.reduce l r mfv (some cur) false false :: rest) st → s.Unrecorded →
    ∃ s', Returns R cfg s false s' ∧
      s'.firstMismatch = some (eagerMismatch R n st cur (some l) (some r) mfv)

variable {R cfg} (hA : cfg.assertMode = false) (htr : cfg.tracing = true)
  (hdf : cfg.deferFails = true)
include hA htr hdf

theorem mismatch_decided {s : Handler O} {st : EagerState O} {l r : O} {mfv : Bool}
    {cur : ObjectPathPair} {rest : List (Task O)}
    (hs : s.Ready (.reduce l r mfv (some cur) false false :: rest) st) (hU : s.Unrecorded)
    (ht : R.typeIndex l = R.typeIndex r)
    (hm : mapResult st.equalMapLhs st.equalMapRhs l r = some false) :
    ∃ s', Returns R cfg s false s' ∧ s'.firstMismatch = some cur := by
  obtain ⟨s', hstep, -⟩ := (step_decided hA hs ht hm).2 rfl
  refine ⟨s', ⟨s, .refl, hstep⟩, ?_⟩
  rw [step_stop_firstMismatch hA htr hdf hs.taskStack hstep hU.firstMismatch, hs.equalMapLhs,
    hs.equalMapRhs, hm, if_neg (Option.some_ne_none false)]

theorem checks_mismatch {rank : O → Nat} (hR : Ranked R rank) {n : Nat}
    (hT : TaskMismatch R cfg n) {mfv : Bool} {cur : ObjectPathPair} {M : EagerState O}
    (hM : M.Inv) :
    ∀ (cs : List (Check O)) (st st' : EagerState O) g m, primsFirst cs = true →
      eagerChecks (eagerRequest R n) mfv cs st g = some (false, st', m) → st.Inv → M.Grows st →
      (queuePass R cfg M.equalMapLhs M.equalMapRhs mfv (some cur) cs).1 = true → ∀ s rest,
      s.Ready ((queuePass R cfg M.equalMapLhs M.equalMapRhs mfv (some cur) cs).2.1 ++ rest) st →
      s.Unrecorded →
      ∃ s', Returns R cfg s false s' ∧ s'.firstMismatch =
        some ((eagerMismatchChecks (eagerRequest R n) (eagerMismatch R n) mfv cur cs st).getD cur)
  | [], _, _, _, _, _, h, _, _, _, _, _, _, _ => by simp [eagerChecks] at h
  | .prim eq site :: cs, st, st', g, m, hP, h, hinv, hg, hq, s, rest, hs, hU => by
    cases eq
    · simp [queuePass] at hq
    · exact checks_mismatch hR hT hM cs st st' g m hP h hinv hg hq s rest hs hU
  | .mark :: cs, st, st', g, m, hP, h, hinv, hg, hq, s, rest, hs, hU =>
    checks_mismatch hR hT hM cs st st' true m hP h hinv hg hq s rest hs hU
  | .object lhs rhs defEqual site :: cs, st, st', g, m, hP, h, hinv, hg, hq, s, rest, hs, hU => by
    have hP' := primsFirst_of_all_not_isPrim hP
    simp only [eagerChecks] at h
    rcases @sequalReduceRun_deferred_cases _ _ R cfg htr hdf _ _ hM hinv hg n lhs rhs
        (defEqual || mfv) (site.resolve cur) with ⟨hrun, hreq⟩ | ⟨hrun, hreq, hmis⟩ | ⟨l, r, rfl, rfl, ht, hrun⟩
    · -- accepted at once by both: the remaining checks decide
      simp only [hreq] at h
      simp only [queuePass, Option.map_some', hrun, if_true, List.nil_append] at hq hs
      simpa only [eagerMismatchChecks, hreq] using
        checks_mismatch hR hT hM cs st st' g m hP' h hinv hg hq s rest hs hU
    · -- rejected at once: the force-fail task records the comparison's paths
      simp only [queuePass, Option.map_some', hrun, if_true, List.singleton_append,
        List.cons_append] at hs
      refine ⟨_, ⟨s, .refl, step_forceFail_traced hA htr hs.taskStack hU.firstMismatch⟩, ?_⟩
      simp only [eagerMismatchChecks, hreq, hmis, Option.getD_some]
    · -- queued: the child's task runs first
      rcases hreq : eagerRequest R n st (some l) (some r) (defEqual || mfv) with _ | ⟨b₁, st₁⟩
      · simp [hreq] at h
      simp only [queuePass, Option.map_some', hrun, if_true, List.singleton_append,
        List.cons_append] at hq hs
      cases b₁
      · -- the child fails, and its first failure is the reducer's
        obtain ⟨s', hret, hfm⟩ := hT st st₁ l r _ (site.resolve cur) _ s hreq hinv ht hs hU
        refine ⟨s', hret, ?_⟩
        simp only [eagerMismatchChecks, hreq, hfm, Option.getD_some]
      · -- the child passes: the remaining checks decide
        simp only [hreq] at h
        have hs₁ := requestSound hR n st st₁ l r _ true hreq hinv
        obtain ⟨s₁, hrun₁, hready⟩ :=
          taskFollows hA hR n st st₁ l r _ (some (site.resolve cur)) _ s true hreq hinv ht
            (fun _ => rfl) hs
        have hU₁ := hrun₁.invariant (fun _ _ hs hn => Handler.Unrecorded.of_next htr hs hn) hU
        obtain ⟨s', hret, hfm⟩ := checks_mismatch hR hT hM cs st₁ st' g m hP' h hs₁.inv
          (hg.trans hs₁.grows) hq s₁ rest hready hU₁
        refine ⟨s', Returns.of_runs hrun₁ hret, ?_⟩
        simpa only [eagerMismatchChecks, hreq] using hfm

/-- `RunTasks` fails where the descent first fails, on reducers that make primitive checks first. -/
theorem taskMismatch {rank : O → Nat} (hR : Ranked R rank)
    (hP : ∀ mfv l r, primsFirst (R.reduce mfv l r) = true) : ∀ n, TaskMismatch R cfg n := by
  intro n
  induction n with
  | zero =>
    intro st st' l r mfv cur rest s h hinv ht hs hU
    rcases eagerRequest_cases h with ⟨hne, -⟩ | ⟨-, hm, -⟩ | ⟨-, -, k, -, -, hk, -⟩
    · exact absurd ht hne
    · rw [eagerMismatch_of_not_open (by simp [hm])]
      exact mismatch_decided hA htr hdf hs hU ht hm
    · omega
  | succ k ih =>
    intro st st' l r mfv cur rest s h hinv ht hs hU
    rcases eagerRequest_cases h with ⟨hne, -⟩ | ⟨-, hm, -⟩ | ⟨-, hm, k', st₁, g, hk, hc, -⟩
    · exact absurd ht hne
    · rw [eagerMismatch_of_not_open (by simp [hm])]
      exact mismatch_decided hA htr hdf hs hU ht hm
    obtain rfl : k' = k := by omega
    rw [eagerMismatch_succ_of_open ht hm]
    obtain ⟨hopen, hfail⟩ := step_open hA hs ht hm (fun _ => rfl)
    simp only [htr, if_true] at hopen hfail
    cases hq : (queuePass R cfg st.equalMapLhs st.equalMapRhs mfv (some cur) (R.reduce mfv l r)).1
    · -- a primitive check fails at dispatch, which is where the descent first fails
      obtain ⟨s', hstep, -⟩ := hfail hq
      refine ⟨s', ⟨s, .refl, hstep⟩, ?_⟩
      rw [step_stop_firstMismatch hA htr hdf hs.taskStack hstep hU.firstMismatch, hs.equalMapLhs,
        hs.equalMapRhs, if_pos hm, eagerMismatchChecks_of_queuePass htr hdf _ _ mfv cur _ _
          (st.invoke l r mfv) (hP mfv l r) hq]
    · obtain ⟨s₁, hnext, hs₁⟩ := hopen hq
      obtain ⟨s', hret, hfm⟩ := checks_mismatch hA htr hdf hR ih hinv (R.reduce mfv l r)
        (st.invoke l r mfv) st₁ false g (hP mfv l r) hc hinv (grows_invoke st l r mfv) hq s₁ _ hs₁
        (hU.of_next htr hnext)
      exact ⟨s', Returns.of_runs (.single hnext) hret, hfm⟩

end Simulation

/-- A traced, deferring `Equal` that returns false records the descent's first failing check. -/
theorem equal_firstMismatch_eq_eagerMismatch (R : Registry O) (rank : O → Nat)
    (hR : Ranked R rank) (hP : ∀ mfv l r, primsFirst (R.reduce mfv l r) = true) (cfg : Config)
    (hA : cfg.assertMode = false) (htr : cfg.tracing = true) (hdf : cfg.deferFails = true)
    (l r : O) (mfv : Bool) {fuel : Nat} {s : Handler O}
    (h : equal R cfg fuel .init (.obj l) (.obj r) mfv = .stop false s) :
    s.firstMismatch = some (eagerMismatch R (rank l + 1) .empty ⟨[], []⟩ (some l) (some r) mfv) := by
  by_cases ht : R.typeIndex l = R.typeIndex r
  · obtain ⟨⟨b, st⟩, he⟩ := Option.isSome_iff_exists.1 (eagerEqual_obj_isSome hR l r mfv)
    cases b
    · have hready : (Handler.root cfg l r mfv).Ready
          [.reduce l r mfv (some ⟨[], []⟩) false false] .empty :=
        ⟨by simp [Handler.root, htr], rfl, rfl, rfl, rfl, rfl⟩
      obtain ⟨s', hret, hfm⟩ := taskMismatch hA htr hdf hR hP _ .empty st l r mfv ⟨[], []⟩ [] _ he
        inv_empty ht hready (Handler.Unrecorded.root htr l r mfv)
      obtain ⟨fuel', hfuel'⟩ := runTasks_of_returns hret
      obtain ⟨-, rfl⟩ := equal_det R cfg h ((equal_init_obj R cfg fuel' ht mfv).trans hfuel')
      exact hfm
    · -- the descent accepts the pair, and then so does `Equal`
      obtain ⟨fuel', s', h', -⟩ := equal_of_eagerEqual R hA hR .init rfl rfl he
      exact absurd (equal_det R cfg h h').1 Bool.false_ne_true
  · simp only [equal, ne_eq, ht, not_false_eq_true, if_true, htr, checkResult_traced hA htr] at h
    cases h
    rw [eagerMismatch_of_not_open fun h => ht h.1]
    rfl

theorem chainRegistry_primsFirst (mfv : Bool) (l r : Nat) :
    primsFirst (chainRegistry.reduce mfv l r) = true := by
  simp only [chainRegistry]
  split <;> rfl

theorem equal_firstMismatch_eq_eagerMismatch_chain : Ranked chainRegistry id ∧
    (∀ mfv l r, primsFirst (chainRegistry.reduce mfv l r) = true) ∧
    (⟨false, true, true⟩ : Config).assertMode = false ∧
    (⟨false, true, true⟩ : Config).tracing = true ∧ (⟨false, true, true⟩ : Config).deferFails = true ∧
    ∃ s, equal chainRegistry ⟨false, true, true⟩ 10 .init (.obj 3) (.obj 2) false = .stop false s ∧
      s.firstMismatch =
        some (eagerMismatch chainRegistry (id 3 + 1) .empty ⟨[], []⟩ (some 3) (some 2) false) :=
  ⟨chainRegistry_ranked, chainRegistry_primsFirst, rfl, rfl, rfl, _, rfl,
    @equal_firstMismatch_eq_eagerMismatch Nat _ chainRegistry id chainRegistry_ranked
      chainRegistry_primsFirst ⟨false, true, true⟩ rfl rfl rfl 3 2 false 10 _ rfl⟩

/-- Leaves `0`, `1` compare a field `w`; a node `n ≥ 2` compares its child `n - 2`, then its `v`. -/
def interleavedRegistry : Registry Nat where
  typeIndex n := if n < 2 then 0 else 1
  reduce _ l r :=
    if l < 2 then [compareAttributeValues (l == r) (some "w") (some "w") none]
    else [objectAttrsEqual (some (l - 2)) (some (r - 2)) false (some "a") (some "a") none,
      compareAttributeValues (l == r) (some "v") (some "v") none]

theorem interleavedRegistry_ranked : Ranked interleavedRegistry (· / 2) := by
  intro mfv l r ht l' r' d site h
  simp only [interleavedRegistry] at ht h
  split_ifs at h ht with hl hr <;>
    simp [compareAttributeValues, objectAttrsEqual] at h
  obtain ⟨rfl, rfl, -⟩ := h
  dsimp only
  omega

/-- The engine records the node's own field `v`; the descent first fails in the child's `w`. -/
theorem equal_interleaved_records_later_mismatch :
    Ranked interleavedRegistry (· / 2) ∧
      ∃ s st, equal interleavedRegistry ⟨false, true, true⟩ 10 .init (.obj 2) (.obj 3) false =
          .stop false s ∧
        eagerRequest interleavedRegistry 2 .empty (some 2) (some 3) false = some (false, st) ∧
        s.firstMismatch = some ⟨[.attr "v"], [.attr "v"]⟩ ∧
        eagerMismatch interleavedRegistry 2 .empty ⟨[], []⟩ (some 2) (some 3) false =
          ⟨[.attr "a", .attr "w"], [.attr "a", .attr "w"]⟩ :=
  ⟨interleavedRegistry_ranked, _, _, rfl, rfl, rfl, rfl⟩

end Tvm.SEqual
