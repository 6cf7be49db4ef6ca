import Tvm.SEqual.Invariants

namespace Tvm.SEqual

variable {O : Type} [DecidableEq O]

/-- What assert mode makes of a comparison's result: false becomes `CheckResult`'s fault. -/
def assertResult (tracing : Bool) :
    Except Fatal (Bool × Handler O) → Except Fatal (Bool × Handler O)
  | .ok (false, s) => .error (assertFailure tracing s.firstMismatch)
  | r => r

/-- What assert mode makes of a return of `RunTasks` or `Equal`. -/
def Step.assertify (tracing : Bool) : Step O → Step O
  | .stop false s => .fatal (assertFailure tracing s.firstMismatch)
  | r => r

def AssertsTo (tracing : Bool) (x y : Except Fatal (Bool × Handler O)) : Prop :=
  x = y ∨ ∃ s, y = .ok (false, s) ∧ x = .error (assertFailure tracing s.firstMismatch) ∧
    (tracing = true → s.firstMismatch.isSome)

omit [DecidableEq O] in
theorem Handler.recordMismatch_of_isSome {s : Handler O} (hs : s.firstMismatch.isSome)
    (p : ObjectPathPair) : s.recordMismatch p = s := by
  simp [Handler.recordMismatch, Option.isSome_iff_ne_none.1 hs]

section Modes

variable (R : Registry O) (cfg : Config)

omit [DecidableEq O] in
theorem checkResult_withAssert (b : Bool) (paths : Option ObjectPathPair) (s : Handler O) :
    checkResult { cfg with assertMode := true } b paths s =
      assertResult cfg.tracing (checkResult { cfg with assertMode := false } b paths s) := by
  cases b <;> rfl

omit [DecidableEq O] in
theorem checkResult_false_of_recorded (paths : Option ObjectPathPair) {s : Handler O}
    (hs : cfg.tracing = true → s.firstMismatch.isSome) :
    checkResult { cfg with assertMode := false } false paths s = .ok (false, s) := by
  cases htr : cfg.tracing
  · simp [checkResult, htr]
  · simp [checkResult, htr, Option.isSome_iff_ne_none.1 (hs htr)]

theorem sequalReduce_withAssert (s : Handler O) (lhs rhs : Option O) (mfv : Bool)
    (paths : Option ObjectPathPair) :
    sequalReduce R { cfg with assertMode := true } s lhs rhs mfv paths =
      assertResult cfg.tracing (sequalReduce R { cfg with assertMode := false } s lhs rhs mfv paths) :=
  checkResult_withAssert cfg _ _ _

variable {cfg} (mfv : Bool) {current : Option ObjectPathPair}

theorem runCheck_withAssert (hc : current.isSome = cfg.tracing) (s : Handler O) (c : Check O) :
    AssertsTo cfg.tracing (runCheck R { cfg with assertMode := true } mfv current s c)
      (runCheck R { cfg with assertMode := false } mfv current s c) := by
  cases c with
  | prim eq site => exact .inl rfl
  | mark => exact .inl rfl
  | object lhs rhs defEqual site =>
    cases current with
    | none =>
      simp only [runCheck, sequalReduce_withAssert]
      rcases sequalReduce R { cfg with assertMode := false } s lhs rhs (defEqual || mfv) none
        with e | ⟨_ | _, s'⟩
      · exact .inl rfl
      · exact .inr ⟨s', rfl, rfl, fun h => absurd (hc.trans h) Bool.false_ne_true⟩
      · exact .inl rfl
    | some cur =>
      simp only [runCheck, sequalReduce_withAssert]
      rcases h : sequalReduce R { cfg with assertMode := false } s lhs rhs (defEqual || mfv)
        (some (site.resolve cur)) with e | ⟨_ | _, s'⟩
      · exact .inl rfl
      · -- the failed comparison has recorded its own paths
        unfold sequalReduce at h
        obtain ⟨hb, -, -, hslot⟩ := checkResult_ok h
        have hs' : s'.firstMismatch.isSome := hslot hc.symm hb.symm rfl
        refine .inr ⟨s'.recordMismatch (site.resolve cur), rfl, ?_, fun _ => ?_⟩ <;>
          rw [Handler.recordMismatch_of_isSome hs']
        · rfl
        · exact hs'
      · exact .inl rfl

theorem runChecks_withAssert (hc : current.isSome = cfg.tracing) : ∀ (cs : List (Check O)) s,
    AssertsTo cfg.tracing (runChecks R { cfg with assertMode := true } mfv current cs s)
      (runChecks R { cfg with assertMode := false } mfv current cs s)
  | [], _ => .inl rfl
  | c :: cs, s => by
    simp only [runChecks]
    rcases runCheck_withAssert R mfv hc s c with h | ⟨s', hy, hx, hs'⟩
    · rw [h]
      rcases runCheck R { cfg with assertMode := false } mfv current s c with e | ⟨_ | _, s₁⟩
      · exact .inl rfl
      · exact .inl rfl
      · exact runChecks_withAssert hc cs s₁
    · rw [hx, hy]
      exact .inr ⟨s', rfl, rfl, hs'⟩

variable (cfg)

theorem dispatch_withAssert (s : Handler O) (l r : O) (p : Option ObjectPathPair) :
    dispatchSEqualReduce R { cfg with assertMode := true } s l r mfv p =
      assertResult cfg.tracing (dispatchSEqualReduce R { cfg with assertMode := false } s l r mfv p) := by
  unfold dispatchSEqualReduce
  by_cases ht : R.typeIndex l ≠ R.typeIndex r
  · rw [if_pos ht, if_pos ht]
    rfl
  rw [if_neg ht, if_neg ht]
  rcases mapResult s.equalMapLhs s.equalMapRhs l r with _ | b
  · -- an open pair: the reducer's checks, then `CheckResult` at the pair's paths
    have hcase : ∀ current : Option ObjectPathPair, current.isSome = cfg.tracing →
        ∀ s₀ : Handler O,
        (runChecks R { cfg with assertMode := true } mfv current (R.reduce mfv l r) s₀ >>=
          fun q => checkResult { cfg with assertMode := true } q.1 p q.2) =
        assertResult cfg.tracing (runChecks R { cfg with assertMode := false } mfv current (R.reduce mfv l r) s₀ >>=
          fun q => checkResult { cfg with assertMode := false } q.1 p q.2) := by
      intro current hc s₀
      rcases runChecks_withAssert R mfv hc (R.reduce mfv l r) s₀ with h | ⟨s', hy, hx, hs'⟩
      · rw [h]
        rcases runChecks R { cfg with assertMode := false } mfv current (R.reduce mfv l r) s₀
          with e | ⟨b, s'⟩
        · rfl
        · exact checkResult_withAssert cfg b p s'
      · rw [hx, hy]
        exact (congrArg (assertResult cfg.tracing) (checkResult_false_of_recorded cfg p hs')).symm
    cases htr : cfg.tracing
    · simpa [htr] using hcase none (by simp [htr]) _
    · cases p with
      | none => simp [htr]; rfl
      | some cur => simpa [htr] using hcase (some cur) (by simp [htr]) _
  · exact checkResult_withAssert cfg b p s

theorem step_withAssert (s : Handler O) :
    step R { cfg with assertMode := true } s =
      (step R { cfg with assertMode := false } s).assertify cfg.tracing := by
  unfold step
  rcases s.taskStack with _ | ⟨_ | p, rest⟩
  · rfl
  · rename_i l r mfv p e g
    cases e
    · simp only
      split_ifs
      · rfl
      · rw [dispatch_withAssert]
        rcases dispatchSEqualReduce R { cfg with assertMode := false }
          { s with taskStack := .reduce l r mfv p true g :: rest, allowPushToStack := false } l r mfv p
          with e | ⟨_ | _, s'⟩ <;> rfl
    · simp only
      split_ifs <;> rfl
  · simp only [checkResult_withAssert]
    rcases checkResult { cfg with assertMode := false } false (some p) s with e | ⟨_ | _, s'⟩ <;> rfl

theorem runTasks_withAssert : ∀ (n : Nat) (s : Handler O),
    runTasks R { cfg with assertMode := true } n s =
      (runTasks R { cfg with assertMode := false } n s).assertify cfg.tracing
  | 0, _ => rfl
  | n + 1, s => by
    simp only [runTasks, step_withAssert]
    rcases step R { cfg with assertMode := false } s with s' | ⟨_ | _, s'⟩ | e
    · exact runTasks_withAssert n s'
    all_goals rfl

end Modes

/-- In assert mode `Equal` runs as without, but false fails: the assertion, or a null read. -/
theorem equal_assertMode (R : Registry O) (cfg : Config) (fuel : Nat) (s : Handler O)
    (lhs rhs : Any O) (mfv : Bool) :
    equal R { cfg with assertMode := true } fuel s lhs rhs mfv =
      (equal R { cfg with assertMode := false } fuel s lhs rhs mfv).assertify cfg.tracing := by
  have hfail : ∀ (paths : Option ObjectPathPair) (s : Handler O),
      (match checkResult { cfg with assertMode := true } false paths s with
        | .ok (b, s) => Step.stop b s
        | .error e => .fatal e) =
      (match checkResult { cfg with assertMode := false } false paths s with
        | .ok (b, s) => Step.stop b s
        | .error e => .fatal e).assertify cfg.tracing := by
    intro paths s
    rw [checkResult_withAssert]
    rcases checkResult { cfg with assertMode := false } false paths s with e | ⟨_ | _, s'⟩ <;> rfl
  rcases lhs with ⟨t, bits⟩ | l <;> rcases rhs with ⟨t', bits'⟩ | r <;> simp only [equal]
  · by_cases h : t = t' ∧ bits = bits'
    · rw [if_pos h, if_pos h]
      rfl
    · rw [if_neg h, if_neg h]
      exact hfail _ _
  · exact hfail _ _
  · exact hfail _ _
  · by_cases ht : R.typeIndex l ≠ R.typeIndex r
    · rw [if_pos ht, if_pos ht]
      exact hfail _ _
    · rw [if_neg ht, if_neg ht, sequalReduce_withAssert]
      rcases sequalReduce R { cfg with assertMode := false } _ (some l) (some r) mfv _
        with e | ⟨_ | _, s₁⟩
      · rfl
      · rfl
      · simp only [assertResult]
        rcases s₁.pendingTasks with _ | ⟨t, _ | ⟨t', rest⟩⟩
        · rfl
        · simp only
          split_ifs
          · exact runTasks_withAssert R cfg _ _
          · rfl
        · rfl

/-- On acyclic registries `Equal` ends in every configuration: a verdict or an assert fault. -/
theorem equal_terminates_of_ranked (R : Registry O) (rank : O → Nat) (hR : Ranked R rank)
    (cfg : Config) (l r : O) (mfv : Bool) :
    ∃ fuel, (∃ b s', equal R cfg fuel .init (.obj l) (.obj r) mfv = .stop b s') ∨
      cfg.assertMode = true ∧
        ∃ fm, equal R cfg fuel .init (.obj l) (.obj r) mfv = .fatal (assertFailure cfg.tracing fm) := by
  obtain ⟨a, t, d⟩ := cfg
  -- the run without assert mode returns the descent's verdict
  obtain ⟨⟨b, st'⟩, h⟩ := Option.isSome_iff_exists.1 (eagerEqual_obj_isSome hR l r mfv)
  obtain ⟨fuel, s', hs', -⟩ :=
    equal_of_eagerEqual R (show (⟨false, t, d⟩ : Config).assertMode = false from rfl) hR .init rfl
      rfl h
  refine ⟨fuel, ?_⟩
  cases a
  · exact .inl ⟨b, s', hs'⟩
  -- with assert mode it is the same run, with false turned into the failure
  have hrun : equal R ⟨true, t, d⟩ fuel .init (.obj l) (.obj r) mfv =
      (Step.stop b s').assertify t := by
    rw [← hs']
    by_cases ht : R.typeIndex l = R.typeIndex r
    · rw [equal_init_obj R _ fuel ht, equal_init_obj R _ fuel ht]
      exact runTasks_withAssert R ⟨false, t, d⟩ fuel _
    · simp only [equal, ht, ne_eq, not_false_eq_true, if_true]
      cases t <;> rfl
  rw [hrun]
  cases b
  exacts [.inr ⟨rfl, _, rfl⟩, .inl ⟨true, s', rfl⟩]

theorem equal_terminates_of_ranked_chain : Ranked chainRegistry id ∧
    ∃ fuel, (∃ b s', equal chainRegistry ⟨true, true, true⟩ fuel .init (.obj 4) (.obj 4) false =
        .stop b s') ∨
      (⟨true, true, true⟩ : Config).assertMode = true ∧ ∃ fm,
        equal chainRegistry ⟨true, true, true⟩ fuel .init (.obj 4) (.obj 4) false =
          .fatal (assertFailure true fm) :=
  ⟨chainRegistry_ranked,
    equal_terminates_of_ranked chainRegistry id chainRegistry_ranked ⟨true, true, true⟩ 4 4 false⟩

/-- The outcome `Equal` hands an entry point: its verdict or its error; `none` while it runs. -/
def Step.result : Step O → Option (Except Fatal Bool)
  | .next _ => none
  | .stop b _ => some (.ok b)
  | .fatal e => some (.error e)

section EntryPoints

variable (R : Registry O)

/-- `node.StructuralEqual`: a fresh traced handler, deferring fails exactly in assert mode. -/
def structuralEqual (fuel : Nat) (lhs rhs : Any O) (assertMode mapFreeVars : Bool) :
    Option (Except Fatal Bool) :=
  (equal R ⟨assertMode, true, assertMode⟩ fuel .init lhs rhs mapFreeVars).result

/-- `node.GetFirstStructuralMismatch`: a traced, deferring `Equal`, then its check on the slot. -/
def getFirstStructuralMismatch (fuel : Nat) (lhs rhs : Any O) (mapFreeVars : Bool) :
    Option (Except Fatal (Option ObjectPathPair)) :=
  match equal R ⟨false, true, true⟩ fuel .init lhs rhs mapFreeVars with
  | .next _ => none
  | .stop b s => some (if b = s.firstMismatch.isNone then .ok s.firstMismatch
      else .error (.icheck "equal == !first_mismatch.defined()"))
  | .fatal e => some (.error e)

/-- `StructuralEqual::operator()`: a fresh handler without tracing, fail deferral or assert mode. -/
def structuralEqualOp (fuel : Nat) (lhs rhs : O) (mapFreeParams : Bool) :
    Option (Except Fatal Bool) :=
  (equal R ⟨false, false, false⟩ fuel .init (.obj lhs) (.obj rhs) mapFreeParams).result

variable {R}

theorem Handler.Unrecorded.runTasks_stop {cfg : Config} (htr : cfg.tracing = true) {n : Nat}
    {s s' : Handler O} {b : Bool} (hs : s.Unrecorded) (h : runTasks R cfg n s = .stop b s') :
    b = true ↔ s'.firstMismatch = none := by
  obtain ⟨s₁, hrun, hstop⟩ := Runs.of_runTasks_stop h
  exact (hrun.invariant (fun _ _ hs hn => hs.of_next htr hn) hs).of_stop htr hstop

variable (R)

/-- `node.StructuralEqual` in assert mode fails with what `GetFirstStructuralMismatch` finds. -/
theorem structuralEqual_assert_eq_getFirstStructuralMismatch (fuel : Nat) (lhs rhs : Any O)
    (mfv : Bool) :
    structuralEqual R fuel lhs rhs true mfv =
      (getFirstStructuralMismatch R fuel lhs rhs mfv).map fun r => r.bind fun
        | none => .ok true
        | some p => .error (.assertFailed (some p)) := by
  rcases lhs with ⟨t, bits⟩ | l <;> rcases rhs with ⟨t', bits'⟩ | r
  · by_cases h : t = t' ∧ bits = bits'
    · simp only [structuralEqual, getFirstStructuralMismatch, equal, if_pos h]
      rfl
    · simp only [structuralEqual, getFirstStructuralMismatch, equal, if_neg h]
      rfl
  · rfl
  · rfl
  by_cases ht : R.typeIndex l = R.typeIndex r
  · have hrun : runTasks R ⟨true, true, true⟩ fuel (Handler.root ⟨true, true, true⟩ l r mfv) =
        (runTasks R ⟨false, true, true⟩ fuel (Handler.root ⟨false, true, true⟩ l r mfv)).assertify
          true :=
      runTasks_withAssert R ⟨false, true, true⟩ fuel _
    rw [structuralEqual, getFirstStructuralMismatch, equal_init_obj R _ fuel ht,
      equal_init_obj R _ fuel ht, hrun]
    rcases hres : runTasks R ⟨false, true, true⟩ fuel (Handler.root ⟨false, true, true⟩ l r mfv)
      with s' | ⟨b, s'⟩ | e
    · rfl
    · have hslot := (Handler.Unrecorded.root rfl l r mfv).runTasks_stop rfl hres
      cases b
      · obtain ⟨p, hp⟩ := Option.ne_none_iff_exists'.1 (mt hslot.2 Bool.false_ne_true)
        simp [Step.assertify, Step.result, hp, Except.bind]
      · simp [Step.assertify, Step.result, hslot.1 rfl, Except.bind]
    · rfl
  · simp only [structuralEqual, getFirstStructuralMismatch, equal, ne_eq, ht, not_false_eq_true,
      if_true]
    rfl

end EntryPoints

end Tvm.SEqual
