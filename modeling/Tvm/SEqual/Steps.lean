import Tvm.SEqual.Eager
import Mathlib.Logic.Relation

namespace Tvm.SEqual

variable {O : Type} [DecidableEq O]

structure Handler.Ready (s : Handler O) (stack : List (Task O)) (st : EagerState O) : Prop where
  taskStack : s.taskStack = stack
  pendingTasks : s.pendingTasks = []
  allowPushToStack : s.allowPushToStack = true
  equalMapLhs : s.equalMapLhs = st.equalMapLhs
  equalMapRhs : s.equalMapRhs = st.equalMapRhs
  invoked : s.invoked = st.invoked

omit [DecidableEq O] in
theorem Handler.recordMismatch_eq (s : Handler O) (paths : ObjectPathPair) :
    s.recordMismatch paths = { s with firstMismatch := (s.recordMismatch paths).firstMismatch } := by
  unfold Handler.recordMismatch
  split <;> rfl

omit [DecidableEq O] in
@[simp] theorem Task.markGraph_markGraph (t : Task O) : t.markGraph.markGraph = t.markGraph := by
  cases t <;> rfl

section Iteration

variable (R : Registry O) (cfg : Config)

def Next (s s' : Handler O) : Prop := step R cfg s = .next s'

def Runs : Handler O → Handler O → Prop := Relation.ReflTransGen (Next R cfg)

def Returns (s : Handler O) (b : Bool) (s' : Handler O) : Prop :=
  ∃ s₁, Runs R cfg s s₁ ∧ step R cfg s₁ = .stop b s'

variable {R cfg}

theorem Returns.of_runs {s s₁ s' : Handler O} {b : Bool} (h₁ : Runs R cfg s s₁)
    (h : Returns R cfg s₁ b s') : Returns R cfg s b s' :=
  let ⟨s₂, h₂, hs⟩ := h
  ⟨s₂, h₁.trans h₂, hs⟩

theorem runTasks_of_returns {s s' : Handler O} {b : Bool} (h : Returns R cfg s b s') :
    ∃ fuel, runTasks R cfg fuel s = .stop b s' := by
  obtain ⟨s₁, hrun, hstop⟩ := h
  induction hrun using Relation.ReflTransGen.head_induction_on with
  | refl => exact ⟨1, by simp [runTasks, hstop]⟩
  | head hnext _ ih =>
    obtain ⟨fuel, hfuel⟩ := ih
    exact ⟨fuel + 1, by rw [runTasks, hnext]; exact hfuel⟩

variable (hA : cfg.assertMode = false)
include hA

omit [DecidableEq O] in
theorem checkResult_of_not_assert (b : Bool) (paths : Option ObjectPathPair) (s : Handler O) :
    ∃ fm, checkResult cfg b paths s = .ok (b, { s with firstMismatch := fm }) := by
  simp only [checkResult, hA, Bool.false_and, Bool.false_eq_true, if_false]
  split
  · exact ⟨paths, rfl⟩
  · exact ⟨s.firstMismatch, rfl⟩

theorem sequalReduce_of_not_assert (R : Registry O) (s : Handler O) (lhs rhs : Option O) (mfv : Bool)
    (paths : Option ObjectPathPair) :
    let run := sequalReduceRun R cfg s.equalMapLhs s.equalMapRhs lhs rhs mfv paths
    ∃ fm, sequalReduce R cfg s lhs rhs mfv paths =
      .ok (run.1, { s with pendingTasks := s.pendingTasks ++ run.2, firstMismatch := fm }) :=
  checkResult_of_not_assert hA _ _ _

end Iteration

section QueuePass

variable (R : Registry O) (cfg : Config)

/-- A reducer's checks as `runChecks` runs them on remap maps that stay fixed. -/
def queuePass (mapLhs mapRhs : O → Option O) (mfv : Bool) (current : Option ObjectPathPair) :
    List (Check O) → Bool × List (Task O) × Bool
  | [] => (true, [], false)
  | .prim eq _ :: cs => if eq then queuePass mapLhs mapRhs mfv current cs else (false, [], false)
  | .object lhs rhs defEqual site :: cs =>
    let run := sequalReduceRun R cfg mapLhs mapRhs lhs rhs (defEqual || mfv)
      (current.map site.resolve)
    let rest := queuePass mapLhs mapRhs mfv current cs
    if run.1 then (rest.1, run.2 ++ rest.2.1, rest.2.2) else (false, [], false)
  | .mark :: cs =>
    let rest := queuePass mapLhs mapRhs mfv current cs
    (rest.1, rest.2.1, true)

variable {cfg} (hA : cfg.assertMode = false)
include hA

theorem runCheck_object (mfv : Bool) (current : Option ObjectPathPair) (s : Handler O)
    (lhs rhs : Option O) (defEqual : Bool) (site : PathSource) :
    let run := sequalReduceRun R cfg s.equalMapLhs s.equalMapRhs lhs rhs (defEqual || mfv)
      (current.map site.resolve)
    ∃ fm, runCheck R cfg mfv current s (.object lhs rhs defEqual site) =
      .ok (run.1, { s with pendingTasks := s.pendingTasks ++ run.2, firstMismatch := fm }) := by
  obtain ⟨fm, h⟩ := sequalReduce_of_not_assert hA R s lhs rhs (defEqual || mfv)
    (current.map site.resolve)
  cases current with
  | none => exact ⟨fm, h⟩
  | some cur =>
    simp only [Option.map_some'] at h ⊢
    simp only [runCheck, h, except_ok_bind, except_pure]
    split <;> rename_i hb
    · rw [hb]
      exact ⟨fm, rfl⟩
    · simp only [Bool.not_eq_true] at hb
      rw [hb, Handler.recordMismatch_eq]
      exact ⟨_, rfl⟩

theorem runChecks_queuePass (mfv : Bool) (current : Option ObjectPathPair) :
    ∀ (cs : List (Check O)) (s : Handler O) (t : Task O) (rest : List (Task O)),
      s.allowPushToStack = false → s.taskStack = t :: rest →
      let q := queuePass R cfg s.equalMapLhs s.equalMapRhs mfv current cs
      ∃ fm pending stack, runChecks R cfg mfv current cs s =
          .ok (q.1, { s with pendingTasks := pending, taskStack := stack, firstMismatch := fm }) ∧
        (q.1 = true → pending = s.pendingTasks ++ q.2.1 ∧
          stack = (if q.2.2 then t.markGraph else t) :: rest)
  | [], s, t, rest, _, hst =>
    ⟨s.firstMismatch, s.pendingTasks, s.taskStack, rfl, by simp [hst, queuePass]⟩
  | .prim eq site :: cs, s, t, rest, hs, hst => by
    by_cases heq : eq
    · subst heq
      simpa only [runChecks, runCheck, if_true, except_pure, except_ok_bind, queuePass] using
        runChecks_queuePass mfv current cs s t rest hs hst
    · simp only [runChecks, runCheck, queuePass, heq, Bool.false_eq_true, if_false]
      refine ⟨(match current, site with
        | some cur, some site => s.recordMismatch (site.resolve cur)
        | _, _ => s).firstMismatch, s.pendingTasks, s.taskStack, ?_, by simp⟩
      split
      · simp only [except_ok_bind, Bool.false_eq_true, if_false, except_pure]
        exact congrArg (fun s' => Except.ok (false, s')) (Handler.recordMismatch_eq s _)
      · simp
  | .object lhs rhs defEqual site :: cs, s, t, rest, hs, hst => by
    obtain ⟨fm, h⟩ := runCheck_object R hA mfv current s lhs rhs defEqual site
    rcases hrun : sequalReduceRun R cfg s.equalMapLhs s.equalMapRhs lhs rhs (defEqual || mfv)
      (current.map site.resolve) with ⟨_ | _, ts⟩ <;> simp only [hrun] at h <;>
      simp only [queuePass, runChecks, h, hrun, except_ok_bind]
    · exact ⟨fm, s.pendingTasks ++ ts, s.taskStack, rfl, by simp⟩
    · obtain ⟨fm', pending, stack, h', hq⟩ := runChecks_queuePass mfv current cs
        { s with pendingTasks := s.pendingTasks ++ ts, firstMismatch := fm } t rest hs hst
      refine ⟨fm', pending, stack, by simpa using h', fun hq₁ => ?_⟩
      obtain ⟨rfl, rfl⟩ := hq (by simpa using hq₁)
      simp
  | .mark :: cs, s, t, rest, hs, hst => by
    have hmark : markGraphNode s = .ok { s with taskStack := t.markGraph :: rest } := by
      simp only [markGraphNode, hst, hs, Bool.false_eq_true, if_false]
    obtain ⟨fm, pending, stack, h', hq⟩ := runChecks_queuePass mfv current cs
      { s with taskStack := t.markGraph :: rest } t.markGraph rest hs rfl
    refine ⟨fm, pending, stack, by
      simpa only [runChecks, runCheck, hmark, except_pure, except_ok_bind, if_true, queuePass] using h',
      ?_⟩
    intro hq₁
    obtain ⟨rfl, rfl⟩ := hq hq₁
    simp [queuePass]

theorem dispatch_decided (mfv : Bool) {b : Bool} (p : Option ObjectPathPair) (s : Handler O) {l r : O}
    (ht : R.typeIndex l = R.typeIndex r)
    (hm : mapResult s.equalMapLhs s.equalMapRhs l r = some b) :
    ∃ fm, dispatchSEqualReduce R cfg s l r mfv p = .ok (b, { s with firstMismatch := fm }) := by
  simpa [dispatchSEqualReduce, ht, hm] using checkResult_of_not_assert hA b p s

theorem dispatch_open (mfv : Bool) {p : Option ObjectPathPair} (s : Handler O) {l r : O}
    {t : Task O} {rest : List (Task O)} (hs : s.allowPushToStack = false)
    (hst : s.taskStack = t :: rest) (ht : R.typeIndex l = R.typeIndex r)
    (hm : mapResult s.equalMapLhs s.equalMapRhs l r = none) (hp : cfg.tracing = true → p.isSome) :
    let q := queuePass R cfg s.equalMapLhs s.equalMapRhs mfv (if cfg.tracing then p else none)
      (R.reduce mfv l r)
    ∃ fm pending stack, dispatchSEqualReduce R cfg s l r mfv p =
        .ok (q.1, { s with pendingTasks := pending, taskStack := stack, firstMismatch := fm,
                           invoked := s.invoked ++ [(l, r, mfv)] }) ∧
      (q.1 = true → pending = s.pendingTasks ++ q.2.1 ∧
        stack = (if q.2.2 then t.markGraph else t) :: rest) := by
  have hrun := runChecks_queuePass R hA mfv (if cfg.tracing then p else none) (R.reduce mfv l r)
    { s with invoked := s.invoked ++ [(l, r, mfv)] } t rest hs hst
  obtain ⟨fm, pending, stack, h, hq⟩ := hrun
  obtain ⟨fm', h'⟩ := checkResult_of_not_assert hA
    (queuePass R cfg s.equalMapLhs s.equalMapRhs mfv (if cfg.tracing then p else none)
      (R.reduce mfv l r)).1 p
    { s with pendingTasks := pending, taskStack := stack, firstMismatch := fm,
             invoked := s.invoked ++ [(l, r, mfv)] }
  refine ⟨fm', pending, stack, ?_, hq⟩
  cases htr : cfg.tracing
  · simp only [htr, Bool.false_eq_true, if_false] at h h' ⊢
    simpa [dispatchSEqualReduce, ht, hm, htr, h] using h'
  · obtain ⟨cur, rfl⟩ := Option.isSome_iff_exists.1 (hp htr)
    simp only [htr, if_true] at h h' ⊢
    simpa [dispatchSEqualReduce, ht, hm, htr, h] using h'

end QueuePass

section Step

variable {R : Registry O} {cfg : Config}

theorem step_complete {s : Handler O} {st : EagerState O} {l r : O} {mfv g : Bool}
    {p : Option ObjectPathPair} {rest : List (Task O)}
    (hs : s.Ready (.reduce l r mfv p true g :: rest) st)
    (hl : st.equalMapLhs l = none ∨ st.equalMapLhs l = some r) :
    ∃ s', Next R cfg s s' ∧ s'.Ready rest (if g then st.insert l r else st) := by
  have hcheck : ¬(s.equalMapLhs l ≠ none ∧ s.equalMapLhs l ≠ some r) := by
    rw [hs.equalMapLhs]; tauto
  refine ⟨_, by simp only [Next, step, hs.taskStack, hcheck, if_false]; rfl, ?_⟩
  cases g
  · exact ⟨rfl, hs.pendingTasks, hs.allowPushToStack, hs.equalMapLhs, hs.equalMapRhs, hs.invoked⟩
  · exact ⟨rfl, hs.pendingTasks, hs.allowPushToStack,
      by simp [Handler.insertMaps, EagerState.insert, hs.equalMapLhs],
      by simp [Handler.insertMaps, EagerState.insert, hs.equalMapRhs], hs.invoked⟩

variable (hA : cfg.assertMode = false)
include hA

theorem step_forceFail {s : Handler O} {p : ObjectPathPair} {rest : List (Task O)}
    (hst : s.taskStack = .forceFail p :: rest) :
    ∃ s', step R cfg s = .stop false s' ∧ s'.invoked = s.invoked := by
  obtain ⟨fm, h⟩ := checkResult_of_not_assert hA false (some p) s
  exact ⟨{ s with firstMismatch := fm }, by simp only [step, hst, h], rfl⟩

theorem step_decided {s : Handler O} {st : EagerState O} {l r : O} {mfv b : Bool}
    {p : Option ObjectPathPair} {rest : List (Task O)}
    (hs : s.Ready (.reduce l r mfv p false false :: rest) st) (ht : R.typeIndex l = R.typeIndex r)
    (hm : mapResult st.equalMapLhs st.equalMapRhs l r = some b) :
    (b = true → ∃ s', Next R cfg s s' ∧ s'.Ready (.reduce l r mfv p true false :: rest) st) ∧
    (b = false → ∃ s', step R cfg s = .stop false s' ∧ s'.invoked = st.invoked) := by
  rcases s with ⟨_, _, _, fm₀, _, _, _⟩
  obtain ⟨rfl, rfl, rfl, rfl, rfl, rfl⟩ := hs
  obtain ⟨fm, h⟩ := dispatch_decided R hA mfv p ⟨[], .reduce l r mfv p true false :: rest, false, fm₀,
    st.equalMapLhs, st.equalMapRhs, st.invoked⟩ ht hm
  constructor
  · rintro rfl
    exact ⟨_, by simp only [Next, step, List.isEmpty_nil, h]; rfl, rfl, rfl, rfl, rfl, rfl, rfl⟩
  · rintro rfl
    exact ⟨_, by simp only [step, List.isEmpty_nil, h]; rfl, rfl⟩

theorem step_open {s : Handler O} {st : EagerState O} {l r : O} {mfv : Bool}
    {p : Option ObjectPathPair} {rest : List (Task O)}
    (hs : s.Ready (.reduce l r mfv p false false :: rest) st) (ht : R.typeIndex l = R.typeIndex r)
    (hm : mapResult st.equalMapLhs st.equalMapRhs l r = none) (hp : cfg.tracing = true → p.isSome) :
    let q := queuePass R cfg st.equalMapLhs st.equalMapRhs mfv (if cfg.tracing then p else none)
      (R.reduce mfv l r)
    (q.1 = true → ∃ s', Next R cfg s s' ∧
      s'.Ready (q.2.1 ++ .reduce l r mfv p true q.2.2 :: rest) (st.invoke l r mfv)) ∧
    (q.1 = false → ∃ s', step R cfg s = .stop false s' ∧ s'.invoked = st.invoked ++ [(l, r, mfv)]) := by
  rcases s with ⟨_, _, _, fm₀, _, _, _⟩
  obtain ⟨rfl, rfl, rfl, rfl, rfl, rfl⟩ := hs
  obtain ⟨fm, pending, stack, h, hq⟩ := dispatch_open R hA mfv ⟨[], .reduce l r mfv p true false :: rest,
    false, fm₀, st.equalMapLhs, st.equalMapRhs, st.invoked⟩ rfl rfl ht hm hp
  rcases hqq : queuePass R cfg st.equalMapLhs st.equalMapRhs mfv (if cfg.tracing then p else none)
    (R.reduce mfv l r) with ⟨_ | _, qs, m⟩ <;> simp only [hqq] at h hq <;>
    refine ⟨fun hb => ?_, fun hb => ?_⟩
  · exact absurd hb Bool.false_ne_true
  · exact ⟨_, by simp only [step, List.isEmpty_nil, h]; rfl, rfl⟩
  · obtain ⟨rfl, rfl⟩ := hq trivial
    refine ⟨_, by simp only [Next, step, List.isEmpty_nil, h]; rfl, ?_, rfl, rfl, rfl, rfl, rfl⟩
    cases m <;> rfl
  · exact absurd hb.symm Bool.false_ne_true

end Step

end Tvm.SEqual
