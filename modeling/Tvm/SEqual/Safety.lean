import Tvm.SEqual.AssertMode

namespace Tvm.SEqual

variable {O : Type} [DecidableEq O]

omit [DecidableEq O] in
theorem markGraphNode_cases (s : Handler O) :
    (s.allowPushToStack = false ∧ s.taskStack ≠ [] ∧
      markGraphNode s = .ok { s with taskStack := s.taskStack.modifyHead Task.markGraph }) ∨
    ((s.allowPushToStack = true ∨ s.taskStack = []) ∧
      markGraphNode s = .error (.icheck "!allow_push_to_stack_ && !task_stack_.empty()")) := by
  unfold markGraphNode
  rcases s.taskStack with _ | ⟨t, rest⟩ <;> cases s.allowPushToStack <;> simp

/-- `e` is what `CheckResult` fails with on false in assert mode. -/
def Config.AssertFault (cfg : Config) (e : Fatal) : Prop :=
  cfg.assertMode = true ∧ ∃ fm, e = assertFailure cfg.tracing fm

omit [DecidableEq O] in
theorem checkResult_error {cfg : Config} {b : Bool} {paths : Option ObjectPathPair}
    {s : Handler O} {e : Fatal} (h : checkResult cfg b paths s = .error e) : cfg.AssertFault e := by
  simp only [checkResult] at h
  split at h
  · rename_i hc
    exact ⟨(Bool.and_eq_true_iff.1 hc).1, _, (Except.error.inj h).symm⟩
  · cases h

theorem eq_of_assertFailure_eq {t : Bool} {fm fm' : Option ObjectPathPair}
    (h : assertFailure t fm' = .assertFailed fm) : fm = fm' := by
  cases t
  · cases h
  · exact (Fatal.assertFailed.inj h).symm

section Slot

variable (p : ObjectPathPair)

/-- A result that keeps the recorded mismatch `p`, also in the assertion it fails with. -/
def SlotHeld : Except Fatal (Bool × Handler O) → Prop
  | .ok (_, s) => s.firstMismatch = some p
  | .error e => ∀ fm, e = .assertFailed fm → fm = some p

def Step.SlotHeld : Step O → Prop
  | .next s | .stop _ s => s.firstMismatch = some p
  | .fatal e => ∀ fm, e = .assertFailed fm → fm = some p

variable {p} (R : Registry O) (cfg : Config)

omit [DecidableEq O] in
theorem checkResult_of_recorded {s : Handler O} (hs : s.firstMismatch = some p) (b : Bool)
    (paths : Option ObjectPathPair) :
    checkResult cfg b paths s =
      if cfg.assertMode && !b then .error (assertFailure cfg.tracing (some p)) else .ok (b, s) := by
  simp [checkResult, hs]

omit [DecidableEq O] in
theorem checkResult_slotHeld {s : Handler O} (hs : s.firstMismatch = some p) (b : Bool)
    (paths : Option ObjectPathPair) : SlotHeld p (checkResult cfg b paths s) := by
  rw [checkResult_of_recorded cfg hs]
  split
  · exact fun fm h => eq_of_assertFailure_eq h
  · exact hs

omit [DecidableEq O] in
theorem bind_checkResult_slotHeld {x : Except Fatal (Bool × Handler O)} (hx : SlotHeld p x)
    (paths : Option ObjectPathPair) :
    SlotHeld p (x >>= fun q => checkResult cfg q.1 paths q.2) := by
  rcases x with e | ⟨b, s⟩
  · exact hx
  · exact checkResult_slotHeld cfg hx b paths

variable (mfv : Bool) (current : Option ObjectPathPair) {s : Handler O}

theorem sequalReduce_slotHeld (hs : s.firstMismatch = some p) (lhs rhs : Option O)
    (paths : Option ObjectPathPair) : SlotHeld p (sequalReduce R cfg s lhs rhs mfv paths) :=
  @checkResult_slotHeld O p cfg { s with pendingTasks := s.pendingTasks ++
    (sequalReduceRun R cfg s.equalMapLhs s.equalMapRhs lhs rhs mfv paths).2 } hs _ _

theorem runCheck_slotHeld (hs : s.firstMismatch = some p) (c : Check O) :
    SlotHeld p (runCheck R cfg mfv current s c) := by
  have hrec : ∀ q, s.recordMismatch q = s := Handler.recordMismatch_of_isSome (by simp [hs])
  cases c with
  | prim eq site =>
    simp only [runCheck]
    split
    · exact hs
    · split
      · rw [SlotHeld, hrec]
        exact hs
      · exact hs
  | object lhs rhs d site =>
    cases current with
    | none => exact sequalReduce_slotHeld R cfg _ hs _ _ _
    | some cur =>
      have h₁ := sequalReduce_slotHeld R cfg (d || mfv) hs lhs rhs (some (site.resolve cur))
      simp only [runCheck]
      generalize sequalReduce R cfg s lhs rhs (d || mfv) (some (site.resolve cur)) = x at h₁ ⊢
      rcases x with e | ⟨_ | _, s'⟩
      · exact h₁
      · show (s'.recordMismatch _).firstMismatch = some p
        rw [Handler.recordMismatch_of_isSome (by simp [show s'.firstMismatch = some p from h₁])]
        exact h₁
      · exact h₁
  | mark =>
    simp only [runCheck]
    rcases markGraphNode_cases s with ⟨-, -, h⟩ | ⟨-, h⟩ <;> rw [h]
    · exact hs
    · exact fun fm h => nomatch h

theorem runChecks_slotHeld : ∀ (cs : List (Check O)) {s : Handler O}, s.firstMismatch = some p →
    SlotHeld p (runChecks R cfg mfv current cs s)
  | [], _, hs => hs
  | c :: cs, s, hs => by
    have h₁ := runCheck_slotHeld R cfg mfv current hs c
    simp only [runChecks]
    generalize runCheck R cfg mfv current s c = x at h₁ ⊢
    rcases x with e | ⟨_ | _, s₁⟩
    · exact h₁
    · exact h₁
    · exact runChecks_slotHeld cs h₁

theorem dispatch_slotHeld (hs : s.firstMismatch = some p) (l r : O) (paths : Option ObjectPathPair) :
    SlotHeld p (dispatchSEqualReduce R cfg s l r mfv paths) := by
  unfold dispatchSEqualReduce
  by_cases ht : R.typeIndex l ≠ R.typeIndex r
  · rw [if_pos ht]
    exact fun fm h => nomatch h
  rw [if_neg ht]
  rcases mapResult s.equalMapLhs s.equalMapRhs l r with _ | b <;> simp only [pure_bind]
  · have hs' : ({ s with invoked := s.invoked ++ [(l, r, mfv)] } : Handler O).firstMismatch =
        some p := hs
    split
    · rcases paths with _ | cur
      · exact fun fm h => nomatch h
      · exact bind_checkResult_slotHeld cfg (runChecks_slotHeld R cfg mfv _ _ hs') _
    · exact bind_checkResult_slotHeld cfg (runChecks_slotHeld R cfg mfv _ _ hs') _
  · exact checkResult_slotHeld cfg hs b paths

theorem step_slotHeld (hs : s.firstMismatch = some p) : (step R cfg s).SlotHeld p := by
  unfold step
  rcases s.taskStack with _ | ⟨_ | q, rest⟩
  · exact hs
  · rename_i l r mfv' paths e g
    cases e
    · simp only
      split_ifs
      · exact fun fm h => nomatch h
      · have h₁ := dispatch_slotHeld R cfg mfv' (s := { s with
          taskStack := .reduce l r mfv' paths true g :: rest, allowPushToStack := false }) hs l r paths
        generalize dispatchSEqualReduce R cfg { s with
          taskStack := .reduce l r mfv' paths true g :: rest, allowPushToStack := false } l r mfv' paths
          = x at h₁ ⊢
        rcases x with e | ⟨_ | _, s'⟩
        · exact h₁
        · exact h₁
        · exact h₁
    · simp only
      split_ifs
      · exact fun fm h => nomatch h
      · exact hs
      · exact hs
  · have h₁ := checkResult_slotHeld cfg hs false (some q)
    simp only
    generalize checkResult cfg false (some q) s = x at h₁ ⊢
    rcases x with e | ⟨b, s'⟩
    · exact h₁
    · exact h₁

/-- `first_mismatch` is written once: no iteration of `RunTasks` changes a recorded mismatch. -/
theorem runTasks_keeps_firstMismatch : ∀ (n : Nat) {s : Handler O},
    s.firstMismatch = some p → (runTasks R cfg n s).SlotHeld p
  | 0, _, hs => hs
  | n + 1, s, hs => by
    have h₁ := step_slotHeld R cfg hs
    simp only [runTasks]
    generalize step R cfg s = x at h₁ ⊢
    rcases x with s' | ⟨b, s'⟩ | e
    · exact runTasks_keeps_firstMismatch n h₁
    · exact h₁
    · exact h₁

theorem runTasks_keeps_firstMismatch_chain :
    ({ Handler.root ⟨true, true, true⟩ 3 2 false with firstMismatch := some ⟨[], []⟩ } :
      Handler Nat).firstMismatch = some ⟨[], []⟩ ∧
    (runTasks chainRegistry ⟨true, true, true⟩ 10
      { Handler.root ⟨true, true, true⟩ 3 2 false with firstMismatch := some ⟨[], []⟩ }).SlotHeld
        ⟨[], []⟩ :=
  ⟨rfl, runTasks_keeps_firstMismatch chainRegistry _ 10 rfl⟩

end Slot

omit [DecidableEq O] in
@[simp] theorem Handler.recordMismatch_pendingTasks (s : Handler O) (p : ObjectPathPair) :
    (s.recordMismatch p).pendingTasks = s.pendingTasks := by
  unfold Handler.recordMismatch
  split <;> rfl

section Checks

variable (R : Registry O) (cfg : Config)

def Task.Sane : Task O → Prop
  | .reduce l r _ p _ _ => R.typeIndex l = R.typeIndex r ∧ (cfg.tracing = true → p.isSome)
  | .forceFail _ => True

structure Handler.Sane (s : Handler O) : Prop where
  pending : s.pendingTasks = []
  allowPushToStack : s.allowPushToStack = true
  stack : ∀ t ∈ s.taskStack, t.Sane R cfg

variable {R cfg}

omit [DecidableEq O] in
theorem Task.sane_markIf (g : Bool) (t : Task O) : (t.markIf g).Sane R cfg ↔ t.Sane R cfg := by
  cases g <;> cases t <;> rfl

theorem Task.sane_of_mem_sequalReduceRun {mapLhs mapRhs : O → Option O} {lhs rhs : Option O}
    {mfv : Bool} {paths : Option ObjectPathPair} (hp : cfg.tracing = true → paths.isSome)
    {t : Task O} (h : t ∈ (sequalReduceRun R cfg mapLhs mapRhs lhs rhs mfv paths).2) :
    t.Sane R cfg := by
  unfold sequalReduceRun at h
  split at h
  · cases h
  · split at h
    · split at h
      · cases h
      · obtain ⟨q, rfl⟩ := mem_deferFail h
        trivial
      · rw [List.mem_singleton.1 h]
        exact ⟨by assumption, hp⟩
    · obtain ⟨q, rfl⟩ := mem_deferFail h
      trivial
  · obtain ⟨q, rfl⟩ := mem_deferFail h
    trivial

theorem sequalReduce_pendingTasks {s s' : Handler O} {lhs rhs : Option O} {mfv b : Bool}
    {paths : Option ObjectPathPair} (h : sequalReduce R cfg s lhs rhs mfv paths = .ok (b, s')) :
    s'.pendingTasks =
      s.pendingTasks ++ (sequalReduceRun R cfg s.equalMapLhs s.equalMapRhs lhs rhs mfv paths).2 := by
  unfold sequalReduce at h
  rw [(checkResult_ok h).2.1]

variable (mfv : Bool) {current : Option ObjectPathPair}

theorem runCheck_pending (hc : cfg.tracing = true → current.isSome) {s s' : Handler O}
    {c : Check O} {b : Bool} (h : runCheck R cfg mfv current s c = .ok (b, s')) :
    ∀ t ∈ s'.pendingTasks, t ∈ s.pendingTasks ∨ t.Sane R cfg := by
  have hrun : ∀ {lhs rhs : Option O} {mfv' : Bool} {paths : Option ObjectPathPair} {b₀ : Bool}
      {s₀ : Handler O}, (cfg.tracing = true → paths.isSome) →
      sequalReduce R cfg s lhs rhs mfv' paths = .ok (b₀, s₀) →
      ∀ t ∈ s₀.pendingTasks, t ∈ s.pendingTasks ∨ t.Sane R cfg := by
    intro lhs rhs mfv' paths b₀ s₀ hp hs t ht
    rw [sequalReduce_pendingTasks hs, List.mem_append] at ht
    exact ht.imp_right (Task.sane_of_mem_sequalReduceRun hp)
  cases c with
  | prim eq site =>
    simp only [runCheck] at h
    split at h
    · cases h
      exact fun t ht => .inl ht
    · split at h <;> cases h <;> exact fun t ht => .inl (by simpa using ht)
  | object lhs rhs d site =>
    cases current with
    | none => exact hrun hc h
    | some cur =>
      obtain ⟨⟨b₀, s₀⟩, hs, h⟩ := except_bind_eq_ok h
      have := hrun (fun _ => by rfl) hs
      dsimp only at h
      split at h <;> obtain ⟨rfl, rfl⟩ := Except.ok.inj h |> Prod.mk.inj
      · exact this
      · simpa using this
  | mark =>
    simp only [runCheck] at h
    rcases markGraphNode_cases s with ⟨-, -, hm⟩ | ⟨-, hm⟩ <;> rw [hm] at h <;> cases h
    exact fun t ht => .inl ht

theorem runChecks_pending (hc : cfg.tracing = true → current.isSome) :
    ∀ {cs : List (Check O)} {s s' : Handler O} {b : Bool},
      runChecks R cfg mfv current cs s = .ok (b, s') →
        ∀ t ∈ s'.pendingTasks, t ∈ s.pendingTasks ∨ t.Sane R cfg
  | [], _, _, _, h => by
    cases h
    exact fun t ht => .inl ht
  | c :: cs, s, s', b, h => by
    obtain ⟨⟨b₁, s₁⟩, h₁, h⟩ := except_bind_eq_ok h
    have hq := runCheck_pending mfv hc h₁
    cases b₁
    · cases h
      exact hq
    · intro t ht
      exact (runChecks_pending hc h t ht).elim (hq t) .inr

variable (R cfg) in
theorem dispatch_eq (s : Handler O) {l r : O} (p : Option ObjectPathPair)
    (ht : R.typeIndex l = R.typeIndex r) :
    dispatchSEqualReduce R cfg s l r mfv p =
      match mapResult s.equalMapLhs s.equalMapRhs l r with
      | some b => checkResult cfg b p s
      | none =>
        if cfg.tracing ∧ p = none then .error .noCurrentPaths else
          runChecks R cfg mfv (if cfg.tracing then p else none) (R.reduce mfv l r)
            { s with invoked := s.invoked ++ [(l, r, mfv)] } >>= fun q => checkResult cfg q.1 p q.2 := by
  unfold dispatchSEqualReduce
  rw [if_neg (not_not.2 ht)]
  rcases mapResult s.equalMapLhs s.equalMapRhs l r with _ | b <;> simp only [pure_bind]
  cases htr : cfg.tracing <;> rcases p with _ | cur <;> simp only [htr]
  all_goals rfl

theorem dispatch_pending {s s' : Handler O} {l r : O} {b : Bool} {p : Option ObjectPathPair}
    (hp : cfg.tracing = true → p.isSome)
    (h : dispatchSEqualReduce R cfg s l r mfv p = .ok (b, s')) :
    ∀ t ∈ s'.pendingTasks, t ∈ s.pendingTasks ∨ t.Sane R cfg := by
  rw [dispatch_eq R cfg mfv s p (dispatch_frame R cfg h).1] at h
  rcases hm : mapResult s.equalMapLhs s.equalMapRhs l r with _ | b₀ <;> simp only [hm] at h
  · split at h
    · cases h
    obtain ⟨⟨b₁, s₁⟩, h₁, h⟩ := except_bind_eq_ok h
    have hq := runChecks_pending mfv (fun htr => by simpa [htr] using hp htr) h₁
    rw [(checkResult_ok h).2.1]
    exact hq
  · rw [(checkResult_ok h).2.1]
    exact fun t ht => .inl ht

variable {s : Handler O} (hs : s.allowPushToStack = false) (hst : s.taskStack ≠ [])
include hs hst

theorem runCheck_error {c : Check O} {e : Fatal} (h : runCheck R cfg mfv current s c = .error e) :
    cfg.AssertFault e := by
  cases c with
  | prim eq site =>
    simp only [runCheck] at h
    split at h
    · cases h
    · split at h <;> cases h
  | object lhs rhs d site =>
    cases current with
    | none =>
      simp only [runCheck, sequalReduce] at h
      exact checkResult_error h
    | some cur =>
      simp only [runCheck] at h
      rcases hx : sequalReduce R cfg s lhs rhs (d || mfv) (some (site.resolve cur)) with
        e' | ⟨_ | _, s₀⟩ <;> rw [hx] at h <;> cases h
      unfold sequalReduce at hx
      exact checkResult_error hx
  | mark =>
    simp only [runCheck] at h
    rcases markGraphNode_cases s with ⟨-, -, hm⟩ | ⟨hm, -⟩
    · rw [hm] at h
      cases h
    · rcases hm with hm | hm
      · simp [hs] at hm
      · exact absurd hm hst

omit hs hst in
theorem runChecks_error : ∀ {cs : List (Check O)} {s : Handler O} {e : Fatal},
    s.allowPushToStack = false → s.taskStack ≠ [] →
    runChecks R cfg mfv current cs s = .error e → cfg.AssertFault e
  | [], _, _, _, _, h => by cases h
  | c :: cs, s, e, hs, hst, h => by
    simp only [runChecks] at h
    rcases h₁ : runCheck R cfg mfv current s c with e' | ⟨_ | _, s₁⟩ <;> rw [h₁] at h
    · cases h
      exact runCheck_error mfv hs hst h₁
    · cases h
    · obtain ⟨hf, -⟩ := runCheck_frame R cfg h₁
      obtain ⟨g, hg⟩ := hf.stack
      refine runChecks_error (hf.allowPushToStack.trans hs) ?_ h
      rw [hg]
      cases hs' : s.taskStack
      · exact absurd hs' hst
      · simp

theorem dispatch_error {l r : O} {p : Option ObjectPathPair} {e : Fatal}
    (ht : R.typeIndex l = R.typeIndex r) (hp : cfg.tracing = true → p.isSome)
    (h : dispatchSEqualReduce R cfg s l r mfv p = .error e) : cfg.AssertFault e := by
  rw [dispatch_eq R cfg mfv s p ht] at h
  rcases hm : mapResult s.equalMapLhs s.equalMapRhs l r with _ | b₀ <;> simp only [hm] at h
  · split at h
    · rename_i hcond
      simp [hcond.1, hcond.2] at hp
    · rcases hx : runChecks R cfg mfv (if cfg.tracing then p else none) (R.reduce mfv l r)
          { s with invoked := s.invoked ++ [(l, r, mfv)] } with e' | ⟨b₁, s₁⟩ <;> rw [hx] at h
      · cases h
        exact runChecks_error mfv
          (show ({ s with invoked := s.invoked ++ [(l, r, mfv)] } : Handler O).allowPushToStack =
            false from hs)
          (show ({ s with invoked := s.invoked ++ [(l, r, mfv)] } : Handler O).taskStack ≠ [] from hst)
          hx
      · exact checkResult_error h
  · exact checkResult_error h

omit hs hst

/-- Between two iterations, an iteration fails only the `same_as` check or an assert-mode fault. -/
theorem step_fatal_of_sane {s : Handler O} (hs : s.Sane R cfg) {e : Fatal}
    (h : step R cfg s = .fatal e) :
    e = .icheck "it->second.same_as(entry.rhs)" ∨ cfg.AssertFault e := by
  unfold step at h
  split at h
  · cases h
  · split at h
    · cases h
    · rename_i hc
      cases h
      exact .inr (checkResult_error hc)
  · split at h <;> cases h
    exact .inl rfl
  · rename_i l r mfv p g rest hst
    split at h
    · rename_i hpend
      simp [hs.pending] at hpend
    · dsimp only at h
      split at h
      · rename_i hd
        cases h
        obtain ⟨ht, hp⟩ := hs.stack _ (hst ▸ List.mem_cons_self _ _)
        exact .inr (dispatch_error mfv rfl (List.cons_ne_nil _ _) ht hp hd)
      · cases h
      · cases h

theorem Handler.Sane.of_next {s s' : Handler O} (hs : s.Sane R cfg) (h : step R cfg s = .next s') :
    s'.Sane R cfg := by
  rcases step_next_cases h with ⟨l, r, mfv, p, g, rest, hst, -, rfl⟩ |
    ⟨l, r, mfv, p, g, rest, s₂, hst, -, hd, rfl⟩
  · have hrest : ∀ t ∈ rest, t.Sane R cfg := fun t ht => hs.stack t (hst ▸ List.mem_cons_of_mem _ ht)
    cases g
    exacts [⟨hs.pending, hs.allowPushToStack, hrest⟩, ⟨hs.pending, hs.allowPushToStack, hrest⟩]
  · have htop := hs.stack _ (hst ▸ List.mem_cons_self _ _)
    have hq := dispatch_pending mfv htop.2 hd
    obtain ⟨-, hf, -, -⟩ := dispatch_frame R cfg hd
    obtain ⟨g', hg'⟩ := hf.stack
    refine ⟨rfl, rfl, fun t ht => ?_⟩
    simp only [hg', List.modifyHead_cons, List.mem_append, List.mem_cons] at ht
    rcases ht with ht | rfl | ht
    · exact (hq t ht).resolve_left (by simp [hs.pending])
    · exact (Task.sane_markIf _ _).2 htop
    · exact hs.stack t (hst ▸ List.mem_cons_of_mem _ ht)

omit [DecidableEq O] in
theorem Handler.Sane.root (R : Registry O) (cfg : Config) {l r : O}
    (ht : R.typeIndex l = R.typeIndex r) (mfv : Bool) : (Handler.root cfg l r mfv).Sane R cfg :=
  ⟨rfl, rfl, by simp [Handler.root, Task.Sane, ht]⟩

/-- `Equal` from a fresh handler fails no `ICHECK` but `same_as`, and in assert mode its fault. -/
theorem equal_fails_only_sameAs (R : Registry O) (cfg : Config) (fuel : Nat) (lhs rhs : Any O)
    (mfv : Bool) {e : Fatal} (h : equal R cfg fuel .init lhs rhs mfv = .fatal e) :
    e = .icheck "it->second.same_as(entry.rhs)" ∨ cfg.AssertFault e := by
  rcases equal_init_cases R cfg fuel lhs rhs mfv with ⟨l, r, -, -, ht, he⟩ | he | he <;>
    rw [he] at h
  · obtain ⟨s₁, hrun, hres | hres⟩ := runTasks_cases h
    · cases hres
    · exact step_fatal_of_sane
        (hrun.invariant (fun _ _ hs hn => hs.of_next hn) (Handler.Sane.root R cfg ht mfv)) hres
  · cases h
  · split at h
    · cases h
    · rename_i hc
      cases h
      exact .inr (checkResult_error hc)

theorem equal_fails_only_sameAs_chain :
    ∃ e, equal chainRegistry ⟨true, true, true⟩ 10 .init (.obj 3) (.obj 2) false = .fatal e ∧
      (e = .icheck "it->second.same_as(entry.rhs)" ∨
        (⟨true, true, true⟩ : Config).assertMode = true ∧ ∃ fm, e = assertFailure true fm) :=
  ⟨_, rfl, equal_fails_only_sameAs chainRegistry ⟨true, true, true⟩ 10 (.obj 3) (.obj 2) false rfl⟩

end Checks

end Tvm.SEqual
